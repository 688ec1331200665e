import Mathlib.Logic.Relation
import Stormancer.Di.Resolution
import Stormancer.Di.Tree
import Stormancer.Lib.Run

/-!
# What a request does, event by event

Whatever a request does, and whatever the factories do that it calls, is a sequence of events of
a few kinds. `Event` says once what they are and when they happen; the invariants of a container
are proved from it. The events are those below a list of slots whose factories are running.

Results:
1. `evolves_callFactory`: the calls of a factory are sequences of events. The induction is on
   the depth, and each function of the resolution passes the property of the factories on.
2. `path_of_reachable`: so are the runs of a container.
3. `invariant_of_path`: what the events preserve holds in all runs in which no factory is called
   again before it returned.
-/

namespace Stormancer.Di

/-! ## Definitions -/

/-- The object is what the registration gives for the owner: it is stored in the slot or, for a
transient one, it was just made. -/
def Found (s : Container) (registering : ScopeId) (reg : RegistrationInternal)
    (owner : ScopeId) (object : Option Instance) : Prop :=
  (reg.lifetime = .instancePerRequest →
    ⟨⟨registering, reg.id⟩, owner, object⟩ ∈ s.completions) ∧
  (reg.lifetime ≠ .instancePerRequest → s.stored (owner, reg.id) = some object)

/-- What the registration gives when it is requested from `requesting`. -/
def Gives (s : Container) (requesting : ScopeId) (p : ScopeId × RegistrationInternal)
    (object : Option Instance) : Prop :=
  ∃ owner, s.scopes.ownerOf p.1 p.2 requesting = some owner ∧ Found s p.1 p.2 owner object

/-- How often a factory threw or a scope did not find its parent. -/
def Container.failures (s : Container) : Nat := s.thrown + s.orphaned.length

/-- What a scope answers, as long as no factory throws and every parent is found. -/
def Answered (s : Container) : Answer → Prop
  | .resolve requesting typeHash (.ok object) => ∃ i reg,
      Picked s.scopes typeHash (s.scopes.chain requesting) i reg ∧
        Gives s requesting (i, reg) object
  | .resolve requesting typeHash (.error e) =>
      (e = .notFound ∧ ∀ i ∈ s.scopes.chain requesting, s.scopes.localRegs i typeHash = []) ∨
      (∃ i reg, Picked s.scopes typeHash (s.scopes.chain requesting) i reg ∧
        s.scopes.ownerOf i reg requesting = none ∧ e = .noMatchingScope reg.tag) ∨
      0 < s.failures
  | .resolveAll requesting typeHash (.ok objects) => ∃ all,
      List.Forall₂ (Gives s requesting)
        (s.scopes.instantiable typeHash requesting (s.scopes.chain requesting)) all ∧
      objects = all.filter (·.isSome)
  | .resolveAll _ _ (.error _) => 0 < s.failures

inductive Event (running : List Slot) (s : Container) : Container → Prop
  | call : Event running s s.countCall
  | fail : Event running s { s with thrown := s.thrown + 1 }
  | begin {parent : Option ScopeId} {tag : String} {xs : List Registering}
      {b : ContainerBuilder} : (∀ p ∈ parent, p < s.scopes.length) →
      (ContainerBuilder.mk (s.scopes.baseId parent) []).registerAll xs = .ok b →
      Event running s (s.addScope (.create b tag (s.scopes.ancestorsOf parent)))
  | reenter (slot : Slot) : Event running s { s with reentered := s.reentered ++ [slot] }
  | destroy (scope : ScopeId) : Event running s (s.destroy scope)
  | orphan (scope : ScopeId) : Event running s (s.addOrphan scope)
  /-- A factory of a transient registration returns. -/
  | make {typeHash : TypeHash} {registering requesting owner : ScopeId}
      {reg : RegistrationInternal} (object : Option Instance) :
      Selects s.scopes typeHash registering reg requesting owner →
      reg.lifetime = .instancePerRequest →
      Event running s (s.addCompletion ⟨⟨registering, reg.id⟩, owner, object⟩)
  /-- Another factory returns. Its slot is empty still, or the factory was called again. -/
  | store {typeHash : TypeHash} {registering requesting owner : ScopeId}
      {reg : RegistrationInternal} (object : Option Instance) :
      Selects s.scopes typeHash registering reg requesting owner →
      reg.lifetime ≠ .instancePerRequest →
      (s.stored (owner, reg.id) = none ∧ (owner, reg.id) ∉ running) ∨
        (owner, reg.id) ∈ s.reentered →
      Event running s ((s.addCompletion ⟨⟨registering, reg.id⟩, owner, object⟩).store
        (owner, reg.id) object)
  | record {typeHash : TypeHash} {registering requesting owner : ScopeId}
      {reg : RegistrationInternal} {object : Instance} :
      Selects s.scopes typeHash registering reg requesting owner →
      Found s registering reg owner (some object) →
      Event running s (s.addResolution
        ⟨typeHash, ⟨registering, reg.id⟩, reg.lifetime, requesting, owner, object⟩)
  | answer (x : Answer) : x.requesting < s.scopes.length → Answered s x →
      Event running s (s.addAnswer x)

abbrev Path (running : List Slot) : Container → Container → Prop :=
  Relation.ReflTransGen (Event running)

/-- What was stored is still stored. -/
def Kept (s s' : Container) : Prop :=
  ∀ slot object, s.stored slot = some object → s'.stored slot = some object

/-- From a tree of scopes, `s'` comes by events, and keeps what was stored. -/
def Evolves (running : List Slot) (s s' : Container) : Prop :=
  WellFormed s.scopes → WellFormed s'.scopes ∧ Path running s s' ∧ Kept s s'

/-- The scopes and the records of `s'` continue those of `s`. -/
structure Later (s s' : Container) : Prop where
  scopes : s.scopes <+: s'.scopes
  reentered : s.reentered <+: s'.reentered
  thrown : s.thrown ≤ s'.thrown
  orphaned : s.orphaned <+: s'.orphaned
  completions : s.completions <+: s'.completions
  resolutions : s.resolutions <+: s'.resolutions
  answers : s.answers <+: s'.answers

/-- Whatever a factory does, it does by events, and it is counted when it throws. -/
structure FactoryOk (factory : FactoryProg) : Prop where
  moves : ∀ running f scope, Prog.Moves (Evolves running) (factory running f scope)
  throws : ∀ running f scope s e s', factory running f scope s = some (.error e, s') →
    0 < s'.failures

namespace EventLemmas

open Container TreeLemmas

/-! ## Events -/

theorem later_refl (s : Container) : Later s s :=
  ⟨List.prefix_refl _, List.prefix_refl _, Nat.le_refl _, List.prefix_refl _, List.prefix_refl _,
    List.prefix_refl _, List.prefix_refl _⟩

theorem later_trans {s t u : Container} (h : Later s t) (h' : Later t u) : Later s u :=
  ⟨h.scopes.trans h'.scopes, h.reentered.trans h'.reentered, h.thrown.trans h'.thrown,
    h.orphaned.trans h'.orphaned, h.completions.trans h'.completions,
    h.resolutions.trans h'.resolutions, h.answers.trans h'.answers⟩

theorem failures_later {s s' : Container} (h : Later s s') : s.failures ≤ s'.failures :=
  Nat.add_le_add h.thrown h.orphaned.length_le

theorem later_of_event {running : List Slot} {s s' : Container} (h : Event running s s') :
    Later s s' := by
  cases h with
  | call | destroy => exact { later_refl s with scopes := List.prefix_refl _ }
  | fail => exact { later_refl s with thrown := Nat.le_succ _ }
  | begin => exact { later_refl s with scopes := List.prefix_append _ _ }
  | reenter => exact { later_refl s with reentered := List.prefix_append _ _ }
  | orphan => exact { later_refl s with orphaned := List.prefix_append _ _ }
  | make | store => exact { later_refl s with completions := List.prefix_append _ _ }
  | record => exact { later_refl s with resolutions := List.prefix_append _ _ }
  | answer => exact { later_refl s with answers := List.prefix_append _ _ }

theorem later_of_path {running : List Slot} {s s' : Container} (h : Path running s s') :
    Later s s' := by
  induction h with
  | refl => exact later_refl s
  | tail _ he ih => exact later_trans ih (later_of_event he)

theorem wellFormed_of_event {running : List Slot} {s s' : Container}
    (hw : WellFormed s.scopes) (h : Event running s s') : WellFormed s'.scopes := by
  cases h with
  | begin hparent hb => exact .begin hw hparent hb
  | call | fail | reenter | destroy | orphan | make | store | record | answer => exact hw

/-- Fewer running factories are a weaker condition on the events. -/
theorem path_weaken {slot : Slot} {running : List Slot} {s s' : Container}
    (h : Path (slot :: running) s s') : Path running s s' := by
  refine Relation.ReflTransGen.mono ?_ _ _ h
  intro t t' he
  cases he with
  | call => exact .call
  | fail => exact .fail
  | begin hparent hb => exact .begin hparent hb
  | reenter => exact .reenter _
  | destroy => exact .destroy _
  | orphan => exact .orphan _
  | make object hsel hl => exact .make object hsel hl
  | record hsel hfound => exact .record hsel hfound
  | answer x hx hok => exact .answer x hx hok
  | store object hsel hl hslot =>
    refine .store object hsel hl (hslot.imp ?_ id)
    exact fun h => ⟨h.1, fun hmem => h.2 (List.mem_cons_of_mem _ hmem)⟩

theorem stored_store (s : Container) (c : Completion) (slot slot' : Slot)
    (object : Option Instance) : ((s.addCompletion c).store slot object).stored slot' =
      if slot' = slot then some object else s.stored slot' := by
  unfold store stored
  by_cases h : slot' = slot
  · rw [h, if_pos rfl]
    exact AList.lookup_insert _
  · rw [if_neg h]
    exact AList.lookup_insert_ne h

/-- The slot of a running factory is not stored to, unless the factory is called again. -/
theorem stored_of_running {slot : Slot} {running : List Slot} {s s' : Container}
    (h : Path (slot :: running) s s') :
    s'.stored slot = s.stored slot ∨ slot ∈ s'.reentered := by
  induction h with
  | refl => exact .inl rfl
  | @tail t t' hpath he ih =>
    have hlater := (later_of_event he).reentered
    rcases ih with hsame | hmem
    · cases he with
      | call | fail | begin | reenter | destroy | orphan | make | record | answer =>
        exact .inl hsame
      | @store _ _ _ owner reg object _ _ hslot =>
        by_cases heq : slot = (owner, reg.id)
        · subst heq
          rcases hslot with ⟨_, hnot⟩ | hmem
          · exact absurd List.mem_cons_self hnot
          · exact .inr (hlater.subset hmem)
        · rw [stored_store, if_neg heq]
          exact .inl hsame
    · exact .inr (hlater.subset hmem)

/-! ## Sequences of events -/

theorem evolves_refl {running : List Slot} (s : Container) : Evolves running s s :=
  fun hw => ⟨hw, .refl, fun _ _ h => h⟩

theorem evolves_trans {running : List Slot} (s t u : Container) (h : Evolves running s t)
    (h' : Evolves running t u) : Evolves running s u := by
  intro hw
  obtain ⟨hw', hpath, hkept⟩ := h hw
  obtain ⟨hw'', hpath', hkept'⟩ := h' hw'
  exact ⟨hw'', hpath.trans hpath', fun slot object hs => hkept' slot object (hkept slot object hs)⟩

theorem evolves_of_event {running : List Slot} {s s' : Container}
    (he : WellFormed s.scopes → Event running s s') (hstored : s'.stored = s.stored)
    (hw' : WellFormed s.scopes → WellFormed s'.scopes) : Evolves running s s' :=
  fun hw => ⟨hw' hw, .single (he hw), fun _ _ h => hstored ▸ h⟩

theorem evolves_later {running : List Slot} {s s' : Container} (h : Evolves running s s')
    (hw : WellFormed s.scopes) : Later s s' :=
  later_of_path (h hw).2.1

theorem selects_later {s s' : Container} (hw : WellFormed s.scopes) (h : Later s s')
    {t : TypeHash} {i z owner : ScopeId} {reg : RegistrationInternal}
    (hs : Selects s.scopes t i reg z owner) : Selects s'.scopes t i reg z owner :=
  selects_of_growth hw h.scopes hs

/-! ## Instances -/

/-- The instance was found or made, unless something failed. -/
def Made (s : Container) (registering : ScopeId) (reg : RegistrationInternal)
    (owner : ScopeId) : Except Error (Option Instance) → Prop
  | .ok object => Found s registering reg owner object
  | .error _ => 0 < s.failures

theorem makeInstance_spec {factory : FactoryProg} (hf : FactoryOk factory)
    {running : List Slot} {s s' : Container} {t : TypeHash} {i z owner : ScopeId}
    {reg : RegistrationInternal} {r : Except Error (Option Instance)}
    (hw : WellFormed s.scopes) (hs : Selects s.scopes t i reg z owner)
    (hl : reg.lifetime = .instancePerRequest)
    (h : makeInstance factory running i reg owner s = some (r, s')) :
    Evolves running s s' ∧ Made s' i reg owner r := by
  unfold makeInstance at h
  rcases Prog.bind_eq_some.mp h with ⟨e, hrun, rfl⟩ | ⟨object, u, hrun, hrest⟩
  · exact ⟨hf.moves running _ _ s _ s' hrun, hf.throws _ _ _ _ _ _ hrun⟩
  · have hfactory := hf.moves running _ _ s _ u hrun
    rw [Prog.modify_bind, Prog.pure_eq_some] at hrest
    obtain ⟨rfl, rfl⟩ := hrest
    have hs' := selects_later hw (evolves_later hfactory hw) hs
    refine ⟨evolves_trans _ u _ hfactory ?_, ?_⟩
    · exact evolves_of_event (fun _ => .make object hs' hl) rfl id
    · refine ⟨fun _ => ?_, fun hne => absurd hl hne⟩
      exact List.mem_append_right _ (List.mem_singleton_self _)

/-- A slot that is found filled gives what it holds. Otherwise the factory runs, the slot is
still empty when it returns or the factory was called again, and the slot is filled. -/
theorem getInstanceForScope_spec {factory : FactoryProg} (hf : FactoryOk factory)
    {running : List Slot} {s s' : Container} {t : TypeHash} {i z owner : ScopeId}
    {reg : RegistrationInternal} {r : Except Error (Option Instance)}
    (hw : WellFormed s.scopes) (hs : Selects s.scopes t i reg z owner)
    (hl : reg.lifetime ≠ .instancePerRequest)
    (h : getInstanceForScope factory running i reg owner s = some (r, s')) :
    Evolves running s s' ∧ Made s' i reg owner r := by
  unfold getInstanceForScope at h
  rw [Prog.get_bind] at h
  cases hstored : s.stored (owner, reg.id) with
  | some existing =>
    simp only [hstored, Prog.pure_eq_some] at h
    obtain ⟨rfl, rfl⟩ := h
    exact ⟨evolves_refl s', fun hl' => absurd hl' hl, fun _ => hstored⟩
  | none =>
    simp only [hstored, Prog.modify_bind] at h
    let s₁ := s.enter running (owner, reg.id)
    have henter : Evolves running s s₁ := by
      show Evolves running s (s.enter running (owner, reg.id))
      unfold enter
      split
      · exact evolves_of_event (fun _ => .reenter _) rfl id
      · exact evolves_refl s
    have hmarked : (owner, reg.id) ∈ running → (owner, reg.id) ∈ s₁.reentered := by
      intro hmem
      show (owner, reg.id) ∈ (s.enter running (owner, reg.id)).reentered
      rw [enter, if_pos hmem]
      exact List.mem_append_right _ (List.mem_singleton_self _)
    have hempty : s₁.stored (owner, reg.id) = none := by
      show (s.enter running (owner, reg.id)).stored (owner, reg.id) = none
      unfold enter
      split <;> exact hstored
    obtain ⟨hw₁, hpath₁, hkept₁⟩ := henter hw
    rcases Prog.bind_eq_some.mp h with ⟨e, hrun, rfl⟩ | ⟨object, u, hrun, hrest⟩
    · obtain ⟨hw', hpath, hkept⟩ := hf.moves _ _ _ s₁ _ s' hrun hw₁
      refine ⟨fun _ => ⟨hw', hpath₁.trans (path_weaken hpath), ?_⟩,
        hf.throws _ _ _ _ _ _ hrun⟩
      exact fun slot object hobject => hkept slot object (hkept₁ slot object hobject)
    · obtain ⟨hwu, hpath, hkept⟩ := hf.moves _ _ _ s₁ _ u hrun hw₁
      rw [Prog.modify_bind, Prog.pure_eq_some] at hrest
      obtain ⟨rfl, rfl⟩ := hrest
      have hlater := later_trans (later_of_path hpath₁) (later_of_path hpath)
      have hslot : (u.stored (owner, reg.id) = none ∧ (owner, reg.id) ∉ running) ∨
          (owner, reg.id) ∈ u.reentered := by
        by_cases hmem : (owner, reg.id) ∈ running
        · exact .inr ((later_of_path hpath).reentered.subset (hmarked hmem))
        · exact (stored_of_running hpath).imp (fun heq => ⟨heq.trans hempty, hmem⟩) id
      refine ⟨fun _ => ⟨hwu, ?_, ?_⟩, fun hl' => absurd hl' hl, fun _ => ?_⟩
      · exact (hpath₁.trans (path_weaken hpath)).tail
          (.store object (selects_later hw hlater hs) hl hslot)
      · intro slot object' hobject'
        have hne : slot ≠ (owner, reg.id) := by
          rintro rfl
          rw [hstored] at hobject'
          cases hobject'
        rw [stored_store, if_neg hne]
        exact hkept slot object' (hkept₁ slot object' hobject')
      · rw [stored_store, if_pos rfl]

/-- A scope finds its parent, or its parent was deleted. -/
theorem tryLockParent_cases (scope : ScopeId) (parents : List ScopeId) (s : Container) :
    tryLockParent scope parents s = some (.ok (), s) ∨
      tryLockParent scope parents s = some (.error .parentDeleted, s.addOrphan scope) := by
  unfold tryLockParent
  rw [Prog.get_bind]
  cases parents with
  | nil => exact .inl rfl
  | cons parent _ =>
    dsimp only
    split
    · exact .inr rfl
    · exact .inl rfl

/-- What follows goes on if the scope finds its parent. -/
theorem tryLockParent_bind {α : Type} {running : List Slot} {s s' : Container} {scope : ScopeId}
    {parents : List ScopeId} {f : Unit → M α} {r : Except Error α}
    (h : (tryLockParent scope parents >>= f) s = some (r, s')) :
    f () s = some (r, s') ∨ Evolves running s s' ∧ ∃ e, r = .error e ∧ 0 < s'.failures := by
  rcases tryLockParent_cases scope parents s with hlock | hlock
  · rcases Prog.bind_eq_some.mp h with ⟨e, hrun, rfl⟩ | ⟨_, u, hrun, hrest⟩
    · cases hlock.symm.trans hrun
    · cases hlock.symm.trans hrun
      exact .inl hrest
  · rcases Prog.bind_eq_some.mp h with ⟨e, hrun, rfl⟩ | ⟨_, u, hrun, hrest⟩
    · cases hlock.symm.trans hrun
      refine .inr ⟨evolves_of_event (fun _ => .orphan scope) rfl id, _, rfl, ?_⟩
      show 0 < s.thrown + (s.orphaned ++ [scope]).length
      rw [List.length_append]
      exact Nat.succ_pos _
    · cases hlock.symm.trans hrun

/-- The search along a chain gives the nearest scope with the tag, if every parent is found. -/
theorem findMatchingScope_spec {running : List Slot} {s s' : Container} {tag : String}
    {chain : List ScopeId} {r : Except Error (Option ScopeId)}
    (h : findMatchingScope tag chain s = some (r, s')) : Evolves running s s' ∧
      ((r = .ok (chain.find? (s.scopes.hasTag tag)) ∧ s' = s) ∨
        ∃ e, r = .error e ∧ 0 < s'.failures) := by
  induction chain with
  | nil =>
    obtain ⟨rfl, rfl⟩ := Prog.pure_eq_some.mp h
    exact ⟨evolves_refl _, .inl ⟨rfl, rfl⟩⟩
  | cons scope parents ih =>
    simp only [findMatchingScope, Prog.get_bind] at h
    cases htag : s.scopes.hasTag tag scope with
    | true =>
      rw [htag, if_pos rfl] at h
      obtain ⟨rfl, rfl⟩ := Prog.pure_eq_some.mp h
      exact ⟨evolves_refl _, .inl ⟨by rw [List.find?_cons_of_pos htag], rfl⟩⟩
    | false =>
      rw [htag, if_neg Bool.false_ne_true] at h
      rw [List.find?_cons_of_neg (by rw [htag]; exact Bool.false_ne_true)]
      rcases tryLockParent_bind h with hrest | ⟨he, hfailed⟩
      · exact ih hrest
      · exact ⟨he, .inr hfailed⟩

/-- What `instantiateRegistration` does: nothing when there is no owner, and else it gives what
the registration has for the owner, unless something failed. -/
theorem instantiateRegistration_spec {factory : FactoryProg} (hf : FactoryOk factory)
    {running : List Slot} {s s' : Container} {t : TypeHash} {i z : ScopeId}
    {reg : RegistrationInternal} {throwOnNotFound : Bool}
    {r : Except Error (Option Instance)} (hw : WellFormed s.scopes)
    (hreg : reg ∈ s.scopes.localRegs i t) (hi : i ∈ s.scopes.chain z)
    (h : instantiateRegistration factory running i reg z throwOnNotFound s = some (r, s')) :
    (s.scopes.ownerOf i reg z = none ∧ s' = s ∧
      r = if throwOnNotFound then .error (.noMatchingScope reg.tag) else .ok none) ∨
    (∃ owner, Selects s.scopes t i reg z owner ∧ Evolves running s s' ∧ Made s' i reg owner r) ∨
    ∃ e, r = .error e ∧ Evolves running s s' ∧ 0 < s'.failures := by
  unfold instantiateRegistration at h
  cases hl : reg.lifetime with
  | instancePerRequest =>
    simp only [hl] at h
    have hs : Selects s.scopes t i reg z z := ⟨hreg, hi, by simp [Scopes.ownerOf, hl]⟩
    exact .inr (.inl ⟨z, hs, makeInstance_spec hf hw hs hl h⟩)
  | instancePerScope =>
    simp only [hl] at h
    have hs : Selects s.scopes t i reg z z := ⟨hreg, hi, by simp [Scopes.ownerOf, hl]⟩
    exact .inr (.inl ⟨z, hs, getInstanceForScope_spec hf hw hs (by rw [hl]; nofun) h⟩)
  | singleInstance =>
    simp only [hl] at h
    have hs : Selects s.scopes t i reg z i := ⟨hreg, hi, by simp [Scopes.ownerOf, hl]⟩
    exact .inr (.inl ⟨i, hs, getInstanceForScope_spec hf hw hs (by rw [hl]; nofun) h⟩)
  | instancePerMatchingScope =>
    simp only [hl, Prog.get_bind] at h
    rcases Prog.bind_eq_some.mp h with ⟨e, hrun, rfl⟩ | ⟨found, u, hrun, hrest⟩
    · obtain ⟨he, hr⟩ := findMatchingScope_spec hrun
      rcases hr with ⟨hr, _⟩ | ⟨e', hr, hfailed⟩
      · cases hr
      · exact .inr (.inr ⟨e, rfl, he, hfailed⟩)
    · obtain ⟨_, hr⟩ : Evolves running s u ∧ _ := findMatchingScope_spec hrun
      rcases hr with ⟨hr, rfl⟩ | ⟨e', hr, _⟩
      · have hfind : found = u.scopes.findMatchingScope z reg.tag := Except.ok.inj hr
        cases found with
        | none =>
          refine .inl ⟨by simp [Scopes.ownerOf, hl, ← hfind], ?_⟩
          cases throwOnNotFound with
          | true => exact (Prog.raise_eq_some.mp hrest).symm
          | false => exact (Prog.pure_eq_some.mp hrest).symm
        | some owner =>
          have hs : Selects u.scopes t i reg z owner :=
            ⟨hreg, hi, by simp [Scopes.ownerOf, hl, ← hfind]⟩
          exact .inr (.inl ⟨owner, hs, getInstanceForScope_spec hf hw hs (by rw [hl]; nofun) hrest⟩)
      · cases hr

/-- The registration gave an instance, had no owner, or something failed. -/
inductive Outcome (s : Container) (requesting registering : ScopeId)
    (reg : RegistrationInternal) (throwOnNotFound : Bool) :
    Except Error (Option Instance) → Prop
  | gave {object : Option Instance} : Gives s requesting (registering, reg) object →
      Outcome s requesting registering reg throwOnNotFound (.ok object)
  | noOwner {r : Except Error (Option Instance)} :
      s.scopes.ownerOf registering reg requesting = none →
      (r = if throwOnNotFound then .error (.noMatchingScope reg.tag) else .ok none) →
      Outcome s requesting registering reg throwOnNotFound r
  | failed {e : Error} : 0 < s.failures →
      Outcome s requesting registering reg throwOnNotFound (.error e)

/-- The record of a resolution is an event as well. -/
theorem resolveRegistration_spec {factory : FactoryProg} (hf : FactoryOk factory)
    {running : List Slot} {s s' : Container} {t : TypeHash} {i z : ScopeId}
    {reg : RegistrationInternal} {throwOnNotFound : Bool}
    {r : Except Error (Option Instance)} (hw : WellFormed s.scopes)
    (hreg : reg ∈ s.scopes.localRegs i t) (hi : i ∈ s.scopes.chain z)
    (h : resolveRegistration factory running t i reg z throwOnNotFound s = some (r, s')) :
    Evolves running s s' ∧ Outcome s' z i reg throwOnNotFound r := by
  unfold resolveRegistration at h
  rcases Prog.bind_eq_some.mp h with ⟨e, hrun, rfl⟩ | ⟨object, u, hrun, hrest⟩
  · rcases instantiateRegistration_spec hf hw hreg hi hrun with
      ⟨hnone, rfl, hr⟩ | ⟨_, _, he, hmade⟩ | ⟨e', _, he, hfailed⟩
    · exact ⟨evolves_refl _, .noOwner hnone hr⟩
    · exact ⟨he, .failed hmade⟩
    · exact ⟨he, .failed hfailed⟩
  · rw [Prog.modify_bind, Prog.pure_eq_some] at hrest
    obtain ⟨rfl, rfl⟩ := hrest
    rcases instantiateRegistration_spec hf hw hreg hi hrun with
      ⟨hnone, rfl, hr⟩ | ⟨owner, hs, he, hfound⟩ | ⟨e, hr, _⟩
    · have hsame : record t i reg z object u = u := by
        unfold record
        rw [hnone]
        cases object <;> rfl
      rw [hsame]
      exact ⟨evolves_refl _, .noOwner hnone hr⟩
    · have hs' := selects_later hw (evolves_later he hw) hs
      unfold record
      rw [hs'.owner_eq]
      cases object with
      | none => exact ⟨he, .gave ⟨owner, hs'.owner_eq, hfound⟩⟩
      | some object =>
        refine ⟨evolves_trans s u _ he ?_, .gave ⟨owner, hs'.owner_eq, hfound⟩⟩
        exact evolves_of_event (fun _ => .record hs' hfound) rfl id
    · cases hr

/-! ## `resolveInternal` -/

/-- The instances that the registrations gave, without the null ones. -/
def Lists (s : Container) (requesting : ScopeId)
    (ps : List (ScopeId × RegistrationInternal)) :
    Except Error (List (Option Instance)) → Prop
  | .ok objects => ∃ all, List.Forall₂ (Gives s requesting) ps all ∧
      objects = all.filter (·.isSome)
  | .error _ => 0 < s.failures

theorem found_later {s s' : Container} {i owner : ScopeId} {reg : RegistrationInternal}
    {object : Option Instance} (hl : Later s s') (hk : Kept s s')
    (h : Found s i reg owner object) : Found s' i reg owner object :=
  ⟨fun ht => hl.completions.subset (h.1 ht), fun ht => hk _ _ (h.2 ht)⟩

theorem gives_later {s s' : Container} (hw : WellFormed s.scopes) (hl : Later s s')
    (hk : Kept s s') {z : ScopeId} (hz : z < s.scopes.length)
    {p : ScopeId × RegistrationInternal} {object : Option Instance} (h : Gives s z p object) :
    Gives s' z p object := by
  obtain ⟨owner, howner, hfound⟩ := h
  exact ⟨owner, (ownerOf_of_growth hw hl.scopes _ _ hz).trans howner, found_later hl hk hfound⟩

/-- A listing that goes on with another one, which comes later. -/
theorem lists_append {s s' : Container} (hw : WellFormed s.scopes) (hl : Later s s')
    (hk : Kept s s') {z : ScopeId} (hz : z < s.scopes.length)
    {ps qs : List (ScopeId × RegistrationInternal)} {objects objects' : List (Option Instance)}
    (h : Lists s z ps (.ok objects)) (h' : Lists s' z qs (.ok objects')) :
    Lists s' z (ps ++ qs) (.ok (objects ++ objects')) := by
  obtain ⟨all, hall, rfl⟩ := h
  obtain ⟨all', hall', rfl⟩ := h'
  have hlater := hall.imp fun _ _ hg => gives_later hw hl hk hz hg
  exact ⟨all ++ all', List.rel_append hlater hall', (List.filter_append ..).symm⟩

/-- What a loop has left does not change while the container evolves. -/
theorem later_of_evolves {running : List Slot} {s s' : Container} (h : Evolves running s s')
    (hw : WellFormed s.scopes) : WellFormed s'.scopes ∧ Later s s' ∧ Kept s s' :=
  ⟨(h hw).1, evolves_later h hw, (h hw).2.2⟩

theorem resolveLocal_spec {factory : FactoryProg} (hf : FactoryOk factory)
    {running : List Slot} {t : TypeHash} {i z : ScopeId} {regs : List RegistrationInternal}
    {s s' : Container} {r : Except Error (List (Option Instance))} (hw : WellFormed s.scopes)
    (hregs : ∀ reg ∈ regs, reg ∈ s.scopes.localRegs i t) (hi : i ∈ s.scopes.chain z)
    (h : resolveLocal factory running t i z regs s = some (r, s')) :
    Evolves running s s' ∧ Lists s' z (s.scopes.owned z i regs) r := by
  induction regs generalizing s r with
  | nil =>
    obtain ⟨rfl, rfl⟩ := Prog.pure_eq_some.mp h
    exact ⟨evolves_refl _, [], .nil, rfl⟩
  | cons reg regs ih =>
    unfold resolveLocal at h
    have hreg := hregs reg List.mem_cons_self
    have hz := length_of_mem_chain hi
    rcases Prog.bind_eq_some.mp h with ⟨e, hrun, rfl⟩ | ⟨object, u, hrun, hrest⟩
    · obtain ⟨he, hout⟩ := resolveRegistration_spec hf hw hreg hi hrun
      refine ⟨he, ?_⟩
      cases hout with
      | failed hfailed => exact hfailed
      | noOwner _ hr => cases hr
    · obtain ⟨he, hout⟩ := resolveRegistration_spec hf hw hreg hi hrun
      obtain ⟨hwu, hlu, hku⟩ := later_of_evolves he hw
      have hregs' : ∀ reg ∈ regs, reg ∈ u.scopes.localRegs i t := by
        intro reg' hreg'
        rw [localRegs_of_growth hlu.scopes (lt_length_of_mem_chain hw hi)]
        exact hregs reg' (List.mem_cons_of_mem _ hreg')
      have hi' : i ∈ u.scopes.chain z := by
        rw [chain_of_growth hlu.scopes hz]
        exact hi
      have hzu := length_of_mem_chain hi'
      have hhead : Lists u z (s.scopes.owned z i [reg])
          (.ok (match object with | none => [] | some _ => [object])) := by
        rw [← owned_of_growth hw hlu.scopes hz]
        cases hout with
        | gave hgives =>
          obtain ⟨owner, howner, _⟩ := id hgives
          refine ⟨[object], ?_, ?_⟩
          · have hone : u.scopes.owned z i [reg] = [(i, reg)] := by
              simp [Scopes.owned, howner]
            rw [hone]
            exact .cons hgives .nil
          · cases object <;> rfl
        | noOwner hnone hr =>
          cases hr
          have hzero : u.scopes.owned z i [reg] = [] := by simp [Scopes.owned, hnone]
          rw [hzero]
          exact ⟨[], .nil, rfl⟩
      have hsplit : s.scopes.owned z i (reg :: regs) =
          s.scopes.owned z i [reg] ++ u.scopes.owned z i regs := by
        rw [owned_of_growth hw hlu.scopes hz]
        unfold Scopes.owned
        rw [← List.map_append, ← List.filter_append, List.singleton_append]
      rw [hsplit]
      rcases Prog.bind_eq_some.mp hrest with ⟨e, hrun', rfl⟩ | ⟨objects, v, hrun', hlast⟩
      · obtain ⟨he', hlists⟩ := ih hwu hregs' hi' hrun'
        exact ⟨evolves_trans _ _ _ he he', hlists⟩
      · cases object with
        | none =>
          obtain ⟨rfl, rfl⟩ := Prog.pure_eq_some.mp hlast
          obtain ⟨he', hlists⟩ := ih hwu hregs' hi' hrun'
          obtain ⟨_, hl, hk⟩ := later_of_evolves he' hwu
          exact ⟨evolves_trans _ _ _ he he', lists_append hwu hl hk hzu hhead hlists⟩
        | some object =>
          obtain ⟨rfl, rfl⟩ := Prog.pure_eq_some.mp hlast
          obtain ⟨he', hlists⟩ := ih hwu hregs' hi' hrun'
          obtain ⟨_, hl, hk⟩ := later_of_evolves he' hwu
          exact ⟨evolves_trans _ _ _ he he', lists_append hwu hl hk hzu hhead hlists⟩

/-- The single request goes along the chain to the nearest registrations, and takes the last. -/
theorem resolveInternal_single {factory : FactoryProg} (hf : FactoryOk factory)
    {running : List Slot} {t : TypeHash} {z : ScopeId} {chain : List ScopeId}
    {s s' : Container} {r : Except Error (List (Option Instance))} (hw : WellFormed s.scopes)
    (hchain : ∀ i ∈ chain, i ∈ s.scopes.chain z)
    (h : resolveInternal factory running t z true chain s = some (r, s')) :
    Evolves running s s' ∧
      ((r = .ok [] ∧ ∀ i ∈ chain, s.scopes.localRegs i t = []) ∨
        (∃ i reg r', Picked s.scopes t chain i reg ∧ Outcome s' z i reg true r' ∧
          r = r'.map fun object => [object]) ∨
        ∃ e, r = .error e ∧ 0 < s'.failures) := by
  induction chain with
  | nil =>
    obtain ⟨rfl, rfl⟩ := Prog.pure_eq_some.mp h
    exact ⟨evolves_refl _, .inl ⟨rfl, nofun⟩⟩
  | cons i parents ih =>
    rw [resolveInternal] at h
    rcases tryLockParent_bind h with hrest | ⟨he, hfailed⟩
    swap
    · exact ⟨he, .inr (.inr hfailed)⟩
    simp only [Prog.get_bind, if_true] at hrest
    cases hlast : (s.scopes.localRegs i t).getLast? with
    | none =>
      simp only [hlast] at hrest
      have hempty := List.getLast?_eq_none_iff.mp hlast
      obtain ⟨he, hr⟩ := ih (fun j hj => hchain j (List.mem_cons_of_mem _ hj)) hrest
      refine ⟨he, ?_⟩
      rcases hr with ⟨rfl, hnone⟩ | ⟨j, reg, r', ⟨⟨nearer, further, rfl, hnearer⟩, hl⟩, hr⟩ | hr
      · exact .inl ⟨rfl, List.forall_mem_cons.mpr ⟨hempty, hnone⟩⟩
      · exact .inr (.inl ⟨j, reg, r', ⟨⟨i :: nearer, further, rfl,
          List.forall_mem_cons.mpr ⟨hempty, hnearer⟩⟩, hl⟩, hr⟩)
      · exact .inr (.inr hr)
    | some reg =>
      simp only [hlast] at hrest
      have hreg := List.mem_of_getLast? hlast
      have hi := hchain i List.mem_cons_self
      have hpicked : Picked s.scopes t (i :: parents) i reg := ⟨⟨[], parents, rfl, nofun⟩, hlast⟩
      rcases Prog.bind_eq_some.mp hrest with ⟨e, hrun', rfl⟩ | ⟨object, v, hrun', hpure⟩
      · obtain ⟨he, hout⟩ := resolveRegistration_spec hf hw hreg hi hrun'
        exact ⟨he, .inr (.inl ⟨i, reg, _, hpicked, hout, rfl⟩)⟩
      · obtain ⟨rfl, rfl⟩ := Prog.pure_eq_some.mp hpure
        obtain ⟨he, hout⟩ := resolveRegistration_spec hf hw hreg hi hrun'
        exact ⟨he, .inr (.inl ⟨i, reg, _, hpicked, hout, rfl⟩)⟩

/-- By induction along the chain of scopes. -/
theorem resolveInternal_every {factory : FactoryProg} (hf : FactoryOk factory)
    {running : List Slot} {t : TypeHash} {z : ScopeId} {chain : List ScopeId}
    {s s' : Container} {r : Except Error (List (Option Instance))} (hw : WellFormed s.scopes)
    (hz : z < s.scopes.length) (hchain : ∀ i ∈ chain, i ∈ s.scopes.chain z)
    (h : resolveInternal factory running t z false chain s = some (r, s')) :
    Evolves running s s' ∧ Lists s' z (s.scopes.instantiable t z chain) r := by
  induction chain generalizing s r with
  | nil =>
    obtain ⟨rfl, rfl⟩ := Prog.pure_eq_some.mp h
    exact ⟨evolves_refl _, [], .nil, rfl⟩
  | cons i parents ih =>
    have hi := hchain i List.mem_cons_self
    rw [resolveInternal] at h
    rcases tryLockParent_bind h with hlocal | ⟨he, e, rfl, hfailed⟩
    swap
    · exact ⟨he, hfailed⟩
    simp only [Prog.get_bind, Bool.false_eq_true, if_false] at hlocal
    rcases Prog.bind_eq_some.mp hlocal with ⟨e, hrun, rfl⟩ | ⟨objects, u, hrun, hrest⟩
    · exact resolveLocal_spec hf hw (fun _ h => h) hi hrun
    · obtain ⟨he, hhead⟩ := resolveLocal_spec hf hw (fun _ h => h) hi hrun
      obtain ⟨hwu, hlu, _⟩ := later_of_evolves he hw
      have hzu := Nat.lt_of_lt_of_le hz hlu.scopes.length_le
      have hparents : ∀ j ∈ parents, j ∈ s.scopes.chain z :=
        fun j hj => hchain j (List.mem_cons_of_mem _ hj)
      have hparents' : ∀ j ∈ parents, j ∈ u.scopes.chain z := by
        rw [chain_of_growth hlu.scopes hz]
        exact hparents
      have hsplit : s.scopes.instantiable t z (i :: parents) =
          s.scopes.owned z i (s.scopes.localRegs i t) ++ u.scopes.instantiable t z parents := by
        rw [instantiable_of_growth hw hlu.scopes hz t hparents]
        rfl
      rw [hsplit]
      rcases Prog.bind_eq_some.mp hrest with ⟨e, hrun', rfl⟩ | ⟨inherited, v, hrun', hlast⟩
      · obtain ⟨he', hlists⟩ := ih hwu hzu hparents' hrun'
        exact ⟨evolves_trans _ _ _ he he', hlists⟩
      · obtain ⟨rfl, rfl⟩ := Prog.pure_eq_some.mp hlast
        obtain ⟨he', hlists⟩ := ih hwu hzu hparents' hrun'
        obtain ⟨_, hlv, hkv⟩ := later_of_evolves he' hwu
        exact ⟨evolves_trans _ _ _ he he', lists_append hwu hlv hkv hzu hhead hlists⟩

/-! ## Commands and factories -/

theorem throwIfNotValid_spec {s s' : Container} {scope : ScopeId} {r : Except Error Unit}
    (h : throwIfNotValid scope s = some (r, s')) :
    s' = s ∧ (r = .error .invalidScope ∨ scope < s.scopes.length) := by
  simp only [throwIfNotValid, Prog.get_bind] at h
  split at h
  · obtain ⟨rfl, rfl⟩ := Prog.raise_eq_some.mp h
    exact ⟨rfl, .inl rfl⟩
  · next hlt =>
    split at h
    · cases h
    · obtain ⟨_, rfl⟩ := Prog.pure_eq_some.mp h
      exact ⟨rfl, .inr (Nat.lt_of_not_le hlt)⟩

/-- A request to a scope runs and is answered, if the scope is valid. -/
theorem answer_moves {α : Type} {running : List Slot} (scope : ScopeId)
    (answer : Except Error α → Answer) (hanswer : ∀ r, (answer r).requesting = scope)
    {m : M α} (hm : ∀ s r s', WellFormed s.scopes → scope < s.scopes.length →
      m s = some (r, s') → Evolves running s s' ∧ Answered s' (answer r)) :
    Prog.Moves (Evolves running) (throwIfNotValid scope >>= fun _ =>
      Prog.tap (fun r s => s.addAnswer (answer r)) m) := by
  intro s r s' h
  rcases Prog.bind_eq_some.mp h with ⟨e, hrun, _⟩ | ⟨_, u, hrun, hrest⟩
  · obtain ⟨rfl, _⟩ := throwIfNotValid_spec hrun
    exact evolves_refl _
  · obtain ⟨rfl, hvalid⟩ := throwIfNotValid_spec hrun
    have hz := hvalid.resolve_left nofun
    obtain ⟨v, hbody, rfl⟩ := Prog.tap_eq_some.mp hrest
    intro hw
    obtain ⟨he, hok⟩ := hm u r v hw hz hbody
    have hzv := Nat.lt_of_lt_of_le hz (evolves_later he hw).scopes.length_le
    refine evolves_trans _ _ _ he (evolves_of_event (fun _ => ?_) rfl id) hw
    exact .answer _ ((hanswer r).symm ▸ hzv) hok

theorem resolve_moves {factory : FactoryProg} (hf : FactoryOk factory) (running : List Slot)
    (scope : ScopeId) (t : TypeHash) :
    Prog.Moves (Evolves running) (resolve factory running scope t) := by
  refine answer_moves scope (.resolve scope t) (fun _ => rfl) ?_
  intro s r s' hw hz h
  rw [Prog.get_bind] at h
  rcases Prog.bind_eq_some.mp h with ⟨e, hrun, rfl⟩ | ⟨objects, u, hrun, hrest⟩
  · obtain ⟨he, hr⟩ := resolveInternal_single hf hw (fun _ h => h) hrun
    refine ⟨he, ?_⟩
    rcases hr with ⟨hr, _⟩ | ⟨i, reg, r', hpicked, hout, hr⟩ | ⟨_, _, hfailed⟩
    · cases hr
    · cases hout with
      | gave _ => cases hr
      | noOwner hnone hr' =>
        rw [if_pos rfl] at hr'
        subst hr'
        cases hr
        exact .inr (.inl ⟨i, reg, picked_of_growth hw (evolves_later he hw).scopes hpicked,
          hnone, rfl⟩)
      | failed hfailed => exact .inr (.inr hfailed)
    · exact .inr (.inr hfailed)
  · obtain ⟨he, hr⟩ := resolveInternal_single hf hw (fun _ h => h) hrun
    have hgrowth := (evolves_later he hw).scopes
    rcases hr with ⟨hr, hnone⟩ | ⟨i, reg, r', hpicked, hout, hr⟩ | ⟨_, hr, _⟩
    · cases hr
      obtain ⟨rfl, rfl⟩ := Prog.raise_eq_some.mp hrest
      exact ⟨he, .inl ⟨rfl, unregistered_of_growth hw hgrowth hz hnone⟩⟩
    · cases hout with
      | gave hgives =>
        cases hr
        obtain ⟨rfl, rfl⟩ := Prog.pure_eq_some.mp hrest
        exact ⟨he, i, reg, picked_of_growth hw hgrowth hpicked, hgives⟩
      | noOwner _ hr' =>
        rw [if_pos rfl] at hr'
        subst hr'
        cases hr
      | failed _ => cases hr
    · cases hr

theorem resolveAll_moves {factory : FactoryProg} (hf : FactoryOk factory) (running : List Slot)
    (scope : ScopeId) (t : TypeHash) :
    Prog.Moves (Evolves running) (resolveAll factory running scope t) := by
  refine answer_moves scope (.resolveAll scope t) (fun _ => rfl) ?_
  intro s r s' hw hz h
  rw [Prog.get_bind] at h
  obtain ⟨he, hlists⟩ := resolveInternal_every hf hw hz (fun _ h => h) h
  have hgrowth := (evolves_later he hw).scopes
  refine ⟨he, ?_⟩
  cases r with
  | error e => exact hlists
  | ok objects =>
    show Lists s' scope (s'.scopes.instantiable t scope (s'.scopes.chain scope)) (.ok objects)
    rw [chain_of_growth hgrowth hz, instantiable_of_growth hw hgrowth hz t fun _ h => h]
    exact hlists

theorem beginScope_evolves {running : List Slot} {parent : Option ScopeId} {tag : String}
    {xs : List Registering} {s s' : Container} {r : Except Error Unit}
    (hparent : ∀ p ∈ parent, p < s.scopes.length)
    (h : beginScope parent tag xs s = some (r, s')) : Evolves running s s' := by
  simp only [beginScope, Prog.get_bind] at h
  cases hb : (ContainerBuilder.mk (s.scopes.baseId parent) []).registerAll xs with
  | error e =>
    simp only [hb] at h
    obtain ⟨_, rfl⟩ := Prog.raise_eq_some.mp h
    exact evolves_refl _
  | ok b =>
    simp only [hb] at h
    cases h
    exact evolves_of_event (fun _ => .begin hparent hb) rfl fun hw => .begin hw hparent hb

theorem beginLifetimeScope_moves {running : List Slot} (parent : ScopeId) (tag : String)
    (xs : List Registering) :
    Prog.Moves (Evolves running) (beginLifetimeScope parent tag xs) := by
  intro s r s' h
  rcases Prog.bind_eq_some.mp h with ⟨e, hrun, _⟩ | ⟨_, u, hrun, hrest⟩
  · obtain ⟨rfl, _⟩ := throwIfNotValid_spec hrun
    exact evolves_refl _
  · obtain ⟨rfl, hvalid⟩ := throwIfNotValid_spec hrun
    refine beginScope_evolves ?_ hrest
    intro p hp
    cases hp
    exact hvalid.resolve_left nofun

theorem runCommand_moves {factory : FactoryProg} (hf : FactoryOk factory)
    (running : List Slot) (command : Command) :
    Prog.Moves (Evolves running) (runCommand factory running command) := by
  cases command with
  | build xs => exact fun s r s' h => beginScope_evolves (fun _ hp => by cases hp) h
  | beginLifetimeScope parent tag xs => exact beginLifetimeScope_moves parent tag xs
  | resolve scope t =>
    exact Prog.Moves.bind evolves_trans (resolve_moves hf running scope t)
      fun _ => Prog.Moves.pure evolves_refl _
  | resolveAll scope t =>
    exact Prog.Moves.bind evolves_trans (resolveAll_moves hf running scope t)
      fun _ => Prog.Moves.pure evolves_refl _

theorem runRequests_moves {factory : FactoryProg} (hf : FactoryOk factory)
    (running : List Slot) (requests : List Request) :
    Prog.Moves (Evolves running) (runRequests factory running requests) := by
  induction requests with
  | nil => exact Prog.Moves.pure evolves_refl _
  | cons request requests ih =>
    refine Prog.Moves.bind evolves_trans (runCommand_moves hf running _).attempt fun result => ?_
    cases result with
    | ok _ => exact ih
    | error e =>
      show Prog.Moves (Evolves running) (if request.caught then _ else _)
      split
      · exact ih
      · exact Prog.Moves.raise evolves_refl e

theorem countThrow_evolves {running : List Slot} (r : Except Error (Option Instance))
    (s : Container) : Evolves running s (s.countThrow r) := by
  cases r with
  | error e => exact evolves_of_event (fun _ => .fail) rfl id
  | ok object => exact evolves_refl s

/-- By induction on the depth. -/
theorem evolves_callFactory (calls : Nat → FactoryCall) (depth : Nat) :
    FactoryOk (callFactory calls depth) := by
  induction depth with
  | zero => exact ⟨fun _ _ _ => Prog.Moves.diverge, nofun⟩
  | succ depth ih =>
    refine ⟨?_, ?_⟩
    · intro running f scope
      refine Prog.Moves.tap evolves_trans (Prog.Moves.get_bind fun s => ?_) countThrow_evolves
      refine Prog.Moves.bind evolves_trans (Prog.Moves.modify ?_) fun _ => ?_
      · exact fun s => evolves_of_event (fun _ => .call) rfl id
      refine Prog.Moves.bind evolves_trans (runRequests_moves ih running _) fun _ => ?_
      split
      · exact Prog.Moves.raise evolves_refl _
      · exact Prog.Moves.pure evolves_refl _
    · intro running f scope s e s' h
      obtain ⟨t, _, rfl⟩ := Prog.tap_eq_some.mp h
      exact Nat.add_pos_left (Nat.succ_pos _) _

end EventLemmas

open EventLemmas

/-! ## Main results -/

theorem evolves_of_step {calls : Nat → FactoryCall} {s s' : Container} {a : Container.Action}
    (h : Container.step calls s a = some s') : Evolves [] s s' := by
  cases a with
  | run command depth =>
    obtain ⟨⟨r, u⟩, hrun, rfl⟩ := Option.map_eq_some_iff.mp h
    exact runCommand_moves (evolves_callFactory calls depth) [] command s r u hrun
  | destroy scope =>
    simp only [Container.step, Option.ite_none_right_eq_some] at h
    obtain ⟨_, hs⟩ := h
    cases hs
    exact evolves_of_event (fun _ => .destroy scope) rfl id

/-- The states of all runs come from the first one by events. -/
theorem path_of_reachable {calls : Nat → FactoryCall} {s : Container}
    (h : Lts.Reachable (Container.step calls) Lts.anyStep Container.init s) :
    WellFormed s.scopes ∧ Path [] Container.init s := by
  refine h.invariant (I := fun s => WellFormed s.scopes ∧ Path [] Container.init s)
    ⟨.nil, .refl⟩ ?_
  intro s a s' hs _ hstep
  obtain ⟨hw', hpath, _⟩ := evolves_of_step hstep hs.1
  exact ⟨hw', hs.2.trans hpath⟩

/-- As long as no factory is called again before it returned, a slot is stored to only while it is
empty. -/
theorem empty_of_store {running : List Slot} {s : Container} {slot : Slot}
    (hslot : (s.stored slot = none ∧ slot ∉ running) ∨ slot ∈ s.reentered)
    (hre : s.reentered = []) : s.stored slot = none := by
  rcases hslot with ⟨hnone, _⟩ | hmem
  · exact hnone
  · rw [hre] at hmem
    cases hmem

theorem kept_of_event {running : List Slot} {s s' : Container} (h : Event running s s')
    (hre : s'.reentered = []) : Kept s s' := by
  intro slot object ho
  cases h with
  | call | fail | begin | reenter | destroy | orphan | make | record | answer => exact ho
  | @store _ _ _ owner reg _ _ _ hslot =>
    have hempty := empty_of_store hslot hre
    rw [stored_store, if_neg]
    · exact ho
    · rintro rfl
      rw [hempty] at ho
      cases ho

/-- The run lemma: what the events preserve holds, as long as no factory is called again before
it returned. -/
theorem invariant_of_path {I : Container → Prop} (h₀ : I Container.init)
    (hI : ∀ s s', WellFormed s.scopes → s'.reentered = [] → Event [] s s' → I s → I s')
    {s : Container} (h : Path [] Container.init s) (hre : s.reentered = []) :
    WellFormed s.scopes ∧ I s := by
  induction h with
  | refl => exact ⟨.nil, h₀⟩
  | @tail s s' _ he ih =>
    have hnil : s.reentered = [] := List.prefix_nil.mp (hre ▸ (later_of_event he).reentered)
    obtain ⟨hw, hs⟩ := ih hnil
    exact ⟨wellFormed_of_event hw he, hI s s' hw hre he hs⟩

end Stormancer.Di
