import Mathlib.Data.List.Find
import Mathlib.Data.List.Forall2
import Mathlib.Data.List.Infix
import Stormancer.Di.Container

/-!
# The tree of scopes

The scopes that can be begun form a tree in which the ids of the registrations grow along each
branch. Branches number their registrations independently of each other.

Results:
1. `builder_ids`: the ids that a builder gives.
2. `chain_suffix`, `chain_total`: the chains of scopes form a forest.
3. `id_lt_of_ancestor`, `reg_unique`: along a branch an id belongs to one registration.
4. `selects_unique`: if no two scopes share a slot, a slot belongs to one registration.
-/

namespace Stormancer.Di

/-! ## Definitions -/

/-- The trees that `beginLifetimeScope` and `build` make. -/
inductive WellFormed : Scopes → Prop
  | nil : WellFormed []
  | begin {scopes : Scopes} {parent : Option ScopeId} {tag : String} {xs : List Registering}
      {b : ContainerBuilder} :
      WellFormed scopes → (∀ p ∈ parent, p < scopes.length) →
      (ContainerBuilder.mk (scopes.baseId parent) []).registerAll xs = .ok b →
      WellFormed (scopes ++ [.create b tag (scopes.ancestorsOf parent)])

/-- A request for the type from `requesting` comes to a registration of `registering`, and the
instance belongs to `owner`. -/
structure Selects (scopes : Scopes) (typeHash : TypeHash) (registering : ScopeId)
    (reg : RegistrationInternal) (requesting owner : ScopeId) : Prop where
  registered : reg ∈ scopes.localRegs registering typeHash
  enclosing : registering ∈ scopes.chain requesting
  owner_eq : scopes.ownerOf registering reg requesting = some owner

/-- `reg` is the last registration of the type in `registering`. Nearer scopes have none. -/
structure Picked (scopes : Scopes) (typeHash : TypeHash) (chain : List ScopeId)
    (registering : ScopeId) (reg : RegistrationInternal) : Prop where
  nearest : ∃ nearer further, chain = nearer ++ registering :: further ∧
    ∀ i ∈ nearer, scopes.localRegs i typeHash = []
  last : (scopes.localRegs registering typeHash).getLast? = some reg

namespace Scopes

/-- Those of the registrations that have an owner when they are requested from `requesting`. -/
def owned (scopes : Scopes) (requesting registering : ScopeId)
    (regs : List RegistrationInternal) : List (ScopeId × RegistrationInternal) :=
  (regs.filter fun reg => (scopes.ownerOf registering reg requesting).isSome).map
    fun reg => (registering, reg)

/-- The registrations of the type along the chain that have an owner. -/
def instantiable (scopes : Scopes) (typeHash : TypeHash) (requesting : ScopeId)
    (chain : List ScopeId) : List (ScopeId × RegistrationInternal) :=
  chain.flatMap fun i => scopes.owned requesting i (scopes.localRegs i typeHash)

end Scopes

/-- The registrations of a scope. -/
def registrationsOf (scopes : Scopes) (i : ScopeId) : List RegistrationInternal :=
  match scopes[i]? with
  | none => []
  | some impl => impl.registrations.map (·.2)

/-- Matching-scope registrations of two scopes with one tag and one id, whose instances belong
to the same scope. -/
def SharedSlot (scopes : Scopes) (i j : ScopeId) (r q : RegistrationInternal) : Prop :=
  r.lifetime = .instancePerMatchingScope ∧ q.lifetime = .instancePerMatchingScope ∧
    r.tag = q.tag ∧ r.id = q.id ∧ (scopes.findMatchingScope i r.tag).isSome = true ∧
    scopes.findMatchingScope i r.tag = scopes.findMatchingScope j q.tag

instance (scopes : Scopes) (i j : ScopeId) (r q : RegistrationInternal) :
    Decidable (SharedSlot scopes i j r q) :=
  inferInstanceAs (Decidable (_ ∧ _ ∧ _ ∧ _ ∧ _ ∧ _))

/-- No two scopes have registrations that share a slot. -/
def NoSharedSlot (scopes : Scopes) : Prop :=
  ∀ i ∈ List.range scopes.length, ∀ j ∈ List.range scopes.length,
    ∀ r ∈ registrationsOf scopes i, ∀ q ∈ registrationsOf scopes j,
      SharedSlot scopes i j r q → i = j

instance (scopes : Scopes) : Decidable (NoSharedSlot scopes) :=
  inferInstanceAs (Decidable (∀ i ∈ List.range scopes.length, ∀ j ∈ List.range scopes.length,
    ∀ r ∈ registrationsOf scopes i, ∀ q ∈ registrationsOf scopes j,
      SharedSlot scopes i j r q → i = j))

namespace TreeLemmas

/-! ## Builders -/

/-- What a builder that counts from `base` holds. -/
structure BuilderOk (base : RegistrationId) (b : ContainerBuilder) : Prop where
  base_le : base ≤ b.registrationCounter
  ids : ∀ d ∈ b.registrations, base ≤ d.id ∧ d.id < b.registrationCounter
  increasing : b.registrations.Pairwise fun d d' => d.id < d'.id
  types : ∀ d ∈ b.registrations, d.typesRegisteredAs.Nodup

theorem apply_keeps {d d' : RegistrationData} {call : HandleCall}
    (h : d.apply call = .ok d') (hd : d.typesRegisteredAs.Nodup) :
    d'.id = d.id ∧ d'.typesRegisteredAs.Nodup := by
  cases call with
  | as typeHash =>
    cases h
    unfold RegistrationData.as
    split
    · exact ⟨rfl, hd⟩
    · next hnew =>
      refine ⟨rfl, List.nodup_append.mpr ⟨hd, List.nodup_singleton _, ?_⟩⟩
      intro t ht t' ht' heq
      rw [List.mem_singleton.mp ht'] at heq
      exact hnew (heq ▸ ht)
  | instancePerRequest | instancePerScope | singleInstance =>
    cases h
    exact ⟨rfl, hd⟩
  | instancePerMatchingScope scopeTag =>
    simp only [RegistrationData.apply] at h
    split at h
    · cases h
    · cases h
      exact ⟨rfl, hd⟩

theorem applyAll_keeps {calls : List HandleCall} {d d' : RegistrationData}
    (h : d.applyAll calls = .ok d') (hd : d.typesRegisteredAs.Nodup) :
    d'.id = d.id ∧ d'.typesRegisteredAs.Nodup := by
  induction calls generalizing d with
  | nil =>
    cases h
    exact ⟨rfl, hd⟩
  | cons call calls ih =>
    unfold RegistrationData.applyAll at h
    cases happly : d.apply call with
    | error e => simp [happly] at h
    | ok d₁ =>
      simp only [happly] at h
      obtain ⟨hid, hnodup⟩ := apply_keeps happly hd
      obtain ⟨hid', hnodup'⟩ := ih h hnodup
      exact ⟨hid'.trans hid, hnodup'⟩

theorem builderOk_register {base : RegistrationId} {b b' : ContainerBuilder} {x : Registering}
    (hb : BuilderOk base b) (h : b.registerDependency x = .ok b') : BuilderOk base b' := by
  simp only [ContainerBuilder.registerDependency] at h
  split at h
  · cases h
  · next d hd =>
    cases h
    obtain ⟨hid, hnodup⟩ := applyAll_keeps hd List.nodup_nil
    refine ⟨Nat.le_succ_of_le hb.base_le, ?_, ?_, ?_⟩
    · intro d' hd'
      rcases List.mem_append.mp hd' with hd' | hd'
      · exact ⟨(hb.ids d' hd').1, Nat.lt_succ_of_lt (hb.ids d' hd').2⟩
      · rw [List.mem_singleton.mp hd', hid]
        exact ⟨hb.base_le, Nat.lt_succ_self _⟩
    · refine List.pairwise_append.mpr ⟨hb.increasing, List.pairwise_singleton _ _, ?_⟩
      intro d' hd' d'' hd''
      rw [List.mem_singleton.mp hd'', hid]
      exact (hb.ids d' hd').2
    · intro d' hd'
      rcases List.mem_append.mp hd' with hd' | hd'
      · exact hb.types d' hd'
      · rw [List.mem_singleton.mp hd']
        exact hnodup

/-- A builder gives increasing ids, from the counter that it was made with. -/
theorem builder_ids {base : RegistrationId} {b b' : ContainerBuilder} {xs : List Registering}
    (hb : BuilderOk base b) (h : b.registerAll xs = .ok b') : BuilderOk base b' := by
  induction xs generalizing b with
  | nil =>
    cases h
    exact hb
  | cons x xs ih =>
    unfold ContainerBuilder.registerAll at h
    cases hx : b.registerDependency x with
    | error e => simp [hx] at h
    | ok b₁ =>
      simp only [hx] at h
      exact ih (builderOk_register hb hx) h

theorem builderOk_new (base : RegistrationId) : BuilderOk base ⟨base, []⟩ :=
  ⟨Nat.le_refl _, nofun, List.Pairwise.nil, nofun⟩

theorem mem_buildRegistrations {b : ContainerBuilder} {p : TypeHash × RegistrationInternal}
    (h : p ∈ buildRegistrations b) :
    ∃ d ∈ b.registrations, p.2 = .ofData d := by
  unfold buildRegistrations at h
  obtain ⟨d, hd, hp⟩ := List.mem_flatMap.mp h
  obtain ⟨t, _, rfl⟩ := List.mem_map.mp hp
  exact ⟨d, hd, rfl⟩

/-- The ids of the local registrations of a type are among those of the builder, in order: a
registration is exposed as a type at most once. -/
theorem localRegs_ids {base : RegistrationId} {b : ContainerBuilder} (hb : BuilderOk base b)
    (t : TypeHash) :
    ((((buildRegistrations b).filter fun p => p.1 == t).map (·.2)).map (·.id)).Nodup := by
  have hsub : ∀ regs : List RegistrationData, (∀ d ∈ regs, d.typesRegisteredAs.Nodup) →
      ((((buildRegistrations ⟨0, regs⟩).filter fun p => p.1 == t).map (·.2)).map (·.id)).Sublist
        (regs.map (·.id)) := by
    intro regs hregs
    induction regs with
    | nil => exact List.Sublist.refl _
    | cons d regs ih =>
      have hrest := ih fun d' hd' => hregs d' (List.mem_cons_of_mem _ hd')
      have htypes : (if d.typesRegisteredAs.isEmpty then [d.actualType]
          else d.typesRegisteredAs).Nodup := by
        split
        · exact List.nodup_singleton _
        · exact hregs d List.mem_cons_self
      simp only [buildRegistrations, List.flatMap_cons, List.filter_append, List.map_append,
        List.filter_map, List.map_map, List.map_cons] at hrest ⊢
      generalize (if d.typesRegisteredAs.isEmpty then [d.actualType]
        else d.typesRegisteredAs) = types at htypes
      have hcount := List.nodup_iff_count_le_one.mp htypes t
      have hfilter : types.filter ((fun p : TypeHash × RegistrationInternal => p.1 == t) ∘
          fun u => (u, RegistrationInternal.ofData d)) = List.replicate (types.count t) t :=
        List.filter_beq t
      rw [hfilter, List.map_replicate]
      have hone : (List.replicate (types.count t) d.id).Sublist [d.id] :=
        (List.replicate_sublist_replicate d.id).mpr hcount
      exact hone.append hrest
  refine (hsub b.registrations hb.types).nodup ?_
  rw [List.nodup_iff_pairwise_ne, List.pairwise_map]
  exact hb.increasing.imp Nat.ne_of_lt

/-! ## One scope of the tree -/

theorem get_of_growth {scopes scopes' : Scopes} (h : scopes <+: scopes') {i : ScopeId}
    (hi : i < scopes.length) : scopes'[i]? = scopes[i]? := by
  obtain ⟨l, rfl⟩ := h
  exact List.getElem?_append_left hi

theorem chain_of_growth {scopes scopes' : Scopes} (h : scopes <+: scopes') {i : ScopeId}
    (hi : i < scopes.length) : scopes'.chain i = scopes.chain i := by
  unfold Scopes.chain
  rw [get_of_growth h hi]

theorem ancestorsOf_of_growth {scopes scopes' : Scopes} (h : scopes <+: scopes')
    {parent : Option ScopeId} (hp : ∀ p ∈ parent, p < scopes.length) :
    scopes'.ancestorsOf parent = scopes.ancestorsOf parent := by
  cases parent with
  | none => rfl
  | some p => exact chain_of_growth h (hp p rfl)

theorem baseId_of_growth {scopes scopes' : Scopes} (h : scopes <+: scopes')
    {parent : Option ScopeId} (hp : ∀ p ∈ parent, p < scopes.length) :
    scopes'.baseId parent = scopes.baseId parent := by
  cases parent with
  | none => rfl
  | some p =>
    unfold Scopes.baseId
    rw [Option.bind_some, Option.bind_some, get_of_growth h (hp p rfl)]

theorem localRegs_of_growth {scopes scopes' : Scopes} (h : scopes <+: scopes') {i : ScopeId}
    (hi : i < scopes.length) (t : TypeHash) : scopes'.localRegs i t = scopes.localRegs i t := by
  unfold Scopes.localRegs
  rw [get_of_growth h hi]

/-- What is known of a scope that was begun below `parent`. -/
structure Begun (scopes : Scopes) (i : ScopeId) (impl : DependencyScopeImpl)
    (parent : Option ScopeId) : Prop where
  parent_lt : ∀ p ∈ parent, p < i
  ancestors : impl.ancestors = scopes.ancestorsOf parent
  base_le : scopes.baseId parent ≤ impl.baseId
  ids : ∀ p ∈ impl.registrations, scopes.baseId parent ≤ p.2.id ∧ p.2.id < impl.baseId
  unique : ∀ p ∈ impl.registrations, ∀ q ∈ impl.registrations, p.2.id = q.2.id → p.2 = q.2
  nodup : ∀ t, ((impl.localRegs t).map (·.id)).Nodup

theorem begun_create {scopes : Scopes} {parent : Option ScopeId} {tag : String}
    {xs : List Registering} {b : ContainerBuilder} (hparent : ∀ p ∈ parent, p < scopes.length)
    (h : (ContainerBuilder.mk (scopes.baseId parent) []).registerAll xs = .ok b) :
    Begun scopes scopes.length (.create b tag (scopes.ancestorsOf parent)) parent := by
  have hb := builder_ids (builderOk_new _) h
  refine ⟨hparent, rfl, hb.base_le, ?_, ?_, fun t => localRegs_ids hb t⟩
  · intro p hp
    obtain ⟨d, hd, hpd⟩ := mem_buildRegistrations hp
    rw [hpd]
    exact hb.ids d hd
  · intro p hp q hq hid
    obtain ⟨d, hd, hpd⟩ := mem_buildRegistrations hp
    obtain ⟨e, he, hqe⟩ := mem_buildRegistrations hq
    have hnodup : (b.registrations.map (·.id)).Nodup := by
      rw [List.nodup_iff_pairwise_ne, List.pairwise_map]
      exact hb.increasing.imp Nat.ne_of_lt
    have hde : d = e := by
      refine List.inj_on_of_nodup_map hnodup hd he ?_
      rw [hpd, hqe] at hid
      exact hid
    rw [hpd, hqe, hde]

theorem begun_of_growth {scopes scopes' : Scopes} (h : scopes <+: scopes') {i : ScopeId}
    {impl : DependencyScopeImpl} {parent : Option ScopeId} (hi : i ≤ scopes.length)
    (hb : Begun scopes i impl parent) : Begun scopes' i impl parent := by
  have hp : ∀ p ∈ parent, p < scopes.length := fun p hp => Nat.lt_of_lt_of_le (hb.parent_lt p hp) hi
  have hbase := baseId_of_growth h hp
  exact ⟨hb.parent_lt, hb.ancestors.trans (ancestorsOf_of_growth h hp).symm,
    hbase ▸ hb.base_le, hbase ▸ hb.ids, hb.unique, hb.nodup⟩

theorem begun_of_wellFormed {scopes : Scopes} (h : WellFormed scopes) {i : ScopeId}
    {impl : DependencyScopeImpl} (hi : scopes[i]? = some impl) :
    ∃ parent, Begun scopes i impl parent := by
  induction h with
  | nil => simp at hi
  | @begin scopes parent tag xs b _ hparent hb ih =>
    have hprefix := List.prefix_append scopes
      [DependencyScopeImpl.create b tag (scopes.ancestorsOf parent)]
    by_cases hlt : i < scopes.length
    · rw [get_of_growth hprefix hlt] at hi
      obtain ⟨parent', hbegun⟩ := ih hi
      exact ⟨parent', begun_of_growth hprefix (Nat.le_of_lt hlt) hbegun⟩
    · have hlen := (List.getElem?_eq_some_iff.mp hi).1
      have hsucc : i < scopes.length + 1 := by simpa using hlen
      have heq : i = scopes.length :=
        Nat.le_antisymm (Nat.le_of_lt_succ hsucc) (Nat.le_of_not_lt hlt)
      subst heq
      rw [List.getElem?_concat_length] at hi
      cases hi
      exact ⟨parent, begun_of_growth hprefix (Nat.le_refl _) (begun_create hparent hb)⟩

/-! ## Chains -/

theorem exists_of_mem_chain {scopes : Scopes} {a i : ScopeId} (ha : a ∈ scopes.chain i) :
    ∃ impl, scopes[i]? = some impl ∧ scopes.chain i = i :: impl.ancestors := by
  unfold Scopes.chain at ha ⊢
  cases hi : scopes[i]? with
  | none => simp [hi] at ha
  | some impl => exact ⟨impl, rfl, rfl⟩

theorem length_of_mem_chain {scopes : Scopes} {a i : ScopeId} (ha : a ∈ scopes.chain i) :
    i < scopes.length := by
  obtain ⟨impl, hi, _⟩ := exists_of_mem_chain ha
  exact (List.getElem?_eq_some_iff.mp hi).1

theorem self_mem_chain {scopes : Scopes} {i : ScopeId} (hi : i < scopes.length) :
    i ∈ scopes.chain i := by
  unfold Scopes.chain
  rw [List.getElem?_eq_getElem hi]
  exact List.mem_cons_self

/-- A chain is its scope and, if there is a parent, the chain of the parent. -/
theorem chain_cases {scopes : Scopes} (h : WellFormed scopes) {a i : ScopeId}
    (ha : a ∈ scopes.chain i) :
    ∃ impl parent, scopes[i]? = some impl ∧ Begun scopes i impl parent ∧
      scopes.chain i = i :: scopes.ancestorsOf parent := by
  obtain ⟨impl, hi, hchain⟩ := exists_of_mem_chain ha
  obtain ⟨parent, hbegun⟩ := begun_of_wellFormed h hi
  exact ⟨impl, parent, hi, hbegun, hchain.trans (congrArg _ hbegun.ancestors)⟩

/-- A proper member of a chain is in the chain of the parent. -/
theorem mem_parent_chain {scopes : Scopes} (h : WellFormed scopes) {a i : ScopeId}
    (ha : a ∈ scopes.chain i) (hne : a ≠ i) :
    ∃ impl p, scopes[i]? = some impl ∧ Begun scopes i impl (some p) ∧
      scopes.chain i = i :: scopes.chain p ∧ a ∈ scopes.chain p := by
  obtain ⟨impl, parent, hi, hbegun, hchain⟩ := chain_cases h ha
  rw [hchain] at ha
  have hmem := (List.mem_cons.mp ha).resolve_left hne
  cases parent with
  | none => cases hmem
  | some p => exact ⟨impl, p, hi, hbegun, hchain, hmem⟩

/-- By induction on the scope: its parent was begun before it. -/
theorem chain_suffix {scopes : Scopes} (h : WellFormed scopes) {a i : ScopeId}
    (ha : a ∈ scopes.chain i) : scopes.chain a <:+ scopes.chain i := by
  induction i using Nat.strong_induction_on with
  | _ i ih =>
    by_cases hne : a = i
    · rw [hne]
    · obtain ⟨impl, p, _, hbegun, hchain, hmem⟩ := mem_parent_chain h ha hne
      rw [hchain]
      exact (ih p (hbegun.parent_lt p rfl) hmem).trans (List.suffix_cons i _)

theorem le_of_mem_chain {scopes : Scopes} (h : WellFormed scopes) {a i : ScopeId}
    (ha : a ∈ scopes.chain i) : a ≤ i := by
  induction i using Nat.strong_induction_on with
  | _ i ih =>
    by_cases hne : a = i
    · exact Nat.le_of_eq hne
    · obtain ⟨impl, p, _, hbegun, _, hmem⟩ := mem_parent_chain h ha hne
      have hp : p < i := hbegun.parent_lt p rfl
      exact Nat.le_of_lt (Nat.lt_of_le_of_lt (ih p hp hmem) hp)

theorem lt_length_of_mem_chain {scopes : Scopes} (h : WellFormed scopes) {a i : ScopeId}
    (ha : a ∈ scopes.chain i) : a < scopes.length :=
  Nat.lt_of_le_of_lt (le_of_mem_chain h ha) (length_of_mem_chain ha)

/-- Of two scopes on one branch one is around the other. -/
theorem chain_total {scopes : Scopes} (h : WellFormed scopes) {a b i : ScopeId}
    (ha : a ∈ scopes.chain i) (hb : b ∈ scopes.chain i) :
    a ∈ scopes.chain b ∨ b ∈ scopes.chain a := by
  have hla := lt_length_of_mem_chain h ha
  have hlb := lt_length_of_mem_chain h hb
  rcases List.suffix_or_suffix_of_suffix (chain_suffix h ha) (chain_suffix h hb) with hs | hs
  · exact .inl (hs.subset (self_mem_chain hla))
  · exact .inr (hs.subset (self_mem_chain hlb))

theorem chain_nodup {scopes : Scopes} (h : WellFormed scopes) (i : ScopeId) :
    (scopes.chain i).Nodup := by
  induction i using Nat.strong_induction_on with
  | _ i ih =>
    by_cases hi : i < scopes.length
    · obtain ⟨impl, parent, _, hbegun, hchain⟩ := chain_cases h (self_mem_chain hi)
      rw [hchain]
      cases parent with
      | none => exact List.nodup_singleton i
      | some p =>
        have hp : p < i := hbegun.parent_lt p rfl
        refine List.nodup_cons.mpr ⟨?_, ih p hp⟩
        intro hmem
        exact absurd (le_of_mem_chain h hmem) (Nat.not_le_of_lt hp)
    · unfold Scopes.chain
      rw [List.getElem?_eq_none (Nat.le_of_not_lt hi)]
      exact List.nodup_nil

/-! ## Trees that have grown -/

theorem findMatchingScope_of_growth {scopes scopes' : Scopes} (hw : WellFormed scopes)
    (h : scopes <+: scopes') {i : ScopeId} (hi : i < scopes.length) (tag : String) :
    scopes'.findMatchingScope i tag = scopes.findMatchingScope i tag := by
  unfold Scopes.findMatchingScope
  rw [chain_of_growth h hi]
  refine List.find?_congr ?_
  intro a ha
  unfold Scopes.hasTag
  rw [get_of_growth h (lt_length_of_mem_chain hw ha)]

theorem ownerOf_of_growth {scopes scopes' : Scopes} (hw : WellFormed scopes)
    (h : scopes <+: scopes') (i : ScopeId) (r : RegistrationInternal) {z : ScopeId}
    (hz : z < scopes.length) : scopes'.ownerOf i r z = scopes.ownerOf i r z := by
  unfold Scopes.ownerOf
  rw [findMatchingScope_of_growth hw h hz]

theorem owned_of_growth {scopes scopes' : Scopes} (hw : WellFormed scopes)
    (h : scopes <+: scopes') {z : ScopeId} (hz : z < scopes.length) (i : ScopeId)
    (regs : List RegistrationInternal) : scopes'.owned z i regs = scopes.owned z i regs := by
  unfold Scopes.owned
  simp only [ownerOf_of_growth hw h i _ hz]

theorem instantiable_of_growth {scopes scopes' : Scopes} (hw : WellFormed scopes)
    (h : scopes <+: scopes') {z : ScopeId} (hz : z < scopes.length) (t : TypeHash)
    {chain : List ScopeId} (hchain : ∀ i ∈ chain, i ∈ scopes.chain z) :
    scopes'.instantiable t z chain = scopes.instantiable t z chain := by
  unfold Scopes.instantiable
  refine List.flatMap_congr ?_
  intro i hi
  rw [localRegs_of_growth h (lt_length_of_mem_chain hw (hchain i hi)), owned_of_growth hw h hz]

theorem picked_of_growth {scopes scopes' : Scopes} (hw : WellFormed scopes)
    (h : scopes <+: scopes') {t : TypeHash} {z i : ScopeId} {reg : RegistrationInternal}
    (hp : Picked scopes t (scopes.chain z) i reg) :
    Picked scopes' t (scopes'.chain z) i reg := by
  obtain ⟨⟨nearer, further, hchain, hnearer⟩, hlast⟩ := hp
  have hmem : ∀ j ∈ nearer ++ i :: further, j < scopes.length :=
    fun j hj => lt_length_of_mem_chain hw (hchain ▸ hj)
  have hz : z < scopes.length :=
    length_of_mem_chain (hchain ▸ List.mem_append_right _ List.mem_cons_self)
  refine ⟨⟨nearer, further, (chain_of_growth h hz).trans hchain, ?_⟩, ?_⟩
  · intro j hj
    rw [localRegs_of_growth h (hmem j (List.mem_append_left _ hj))]
    exact hnearer j hj
  · rw [localRegs_of_growth h (hmem i (List.mem_append_right _ List.mem_cons_self))]
    exact hlast

theorem unregistered_of_growth {scopes scopes' : Scopes} (hw : WellFormed scopes)
    (h : scopes <+: scopes') {t : TypeHash} {z : ScopeId} (hz : z < scopes.length)
    (hnone : ∀ i ∈ scopes.chain z, scopes.localRegs i t = []) :
    ∀ i ∈ scopes'.chain z, scopes'.localRegs i t = [] := by
  intro i hi
  rw [chain_of_growth h hz] at hi
  rw [localRegs_of_growth h (lt_length_of_mem_chain hw hi)]
  exact hnone i hi

theorem selects_of_growth {scopes scopes' : Scopes} (hw : WellFormed scopes)
    (h : scopes <+: scopes') {t : TypeHash} {i z owner : ScopeId} {r : RegistrationInternal}
    (hs : Selects scopes t i r z owner) : Selects scopes' t i r z owner := by
  have hz := length_of_mem_chain hs.enclosing
  refine ⟨?_, ?_, ?_⟩
  · rw [localRegs_of_growth h (lt_length_of_mem_chain hw hs.enclosing)]
    exact hs.registered
  · rw [chain_of_growth h hz]
    exact hs.enclosing
  · rw [ownerOf_of_growth hw h i r hz]
    exact hs.owner_eq

/-! ## Ids along a chain -/

theorem mem_registrations {scopes : Scopes} {i : ScopeId} {t : TypeHash}
    {r : RegistrationInternal} (hr : r ∈ scopes.localRegs i t) :
    ∃ impl, scopes[i]? = some impl ∧ (t, r) ∈ impl.registrations := by
  unfold Scopes.localRegs at hr
  cases hi : scopes[i]? with
  | none => simp [hi] at hr
  | some impl =>
    simp only [hi] at hr
    obtain ⟨⟨u, q⟩, hp, rfl⟩ := List.mem_map.mp hr
    obtain ⟨hmem, htype⟩ := List.mem_filter.mp hp
    have htu : u = t := beq_iff_eq.mp htype
    exact ⟨impl, rfl, htu ▸ hmem⟩

theorem mem_registrationsOf {scopes : Scopes} {i : ScopeId} {t : TypeHash}
    {r : RegistrationInternal} (hr : r ∈ scopes.localRegs i t) : r ∈ registrationsOf scopes i := by
  obtain ⟨impl, hi, hmem⟩ := mem_registrations hr
  unfold registrationsOf
  rw [hi]
  exact List.mem_map.mpr ⟨_, hmem, rfl⟩

/-- Within a scope an id belongs to one registration. -/
theorem reg_unique {scopes : Scopes} (h : WellFormed scopes) {i : ScopeId} {t u : TypeHash}
    {r q : RegistrationInternal} (hr : r ∈ scopes.localRegs i t) (hq : q ∈ scopes.localRegs i u)
    (hid : r.id = q.id) : r = q := by
  obtain ⟨impl, hi, hr⟩ := mem_registrations hr
  obtain ⟨impl', hi', hq⟩ := mem_registrations hq
  rw [hi] at hi'
  cases hi'
  obtain ⟨_, hbegun⟩ := begun_of_wellFormed h hi
  exact hbegun.unique _ hr _ hq hid

theorem baseId_le_of_ancestor {scopes : Scopes} (h : WellFormed scopes) {a i : ScopeId}
    {implA impl : DependencyScopeImpl} (ha : a ∈ scopes.chain i) (hA : scopes[a]? = some implA)
    (hi : scopes[i]? = some impl) : implA.baseId ≤ impl.baseId := by
  induction i using Nat.strong_induction_on generalizing impl with
  | _ i ih =>
    by_cases hne : a = i
    · rw [hne, hi] at hA
      cases hA
      exact Nat.le_refl _
    · obtain ⟨impl', p, hi', hbegun, _, hmem⟩ := mem_parent_chain h ha hne
      rw [hi] at hi'
      cases hi'
      obtain ⟨implP, hp, _⟩ := exists_of_mem_chain hmem
      have hle := ih p (hbegun.parent_lt p rfl) hmem hp
      have hbase : scopes.baseId (some p) = implP.baseId := by
        unfold Scopes.baseId
        rw [Option.bind_some, hp]
      exact hle.trans (hbase ▸ hbegun.base_le)

/-- The registrations of an enclosing scope have smaller ids. -/
theorem id_lt_of_ancestor {scopes : Scopes} (h : WellFormed scopes) {a i : ScopeId}
    {t u : TypeHash} {r q : RegistrationInternal} (ha : a ∈ scopes.chain i) (hne : a ≠ i)
    (hr : r ∈ scopes.localRegs a t) (hq : q ∈ scopes.localRegs i u) : r.id < q.id := by
  obtain ⟨implA, hA, hr⟩ := mem_registrations hr
  obtain ⟨impl, hi, hq⟩ := mem_registrations hq
  obtain ⟨impl', p, hi', hbegun, _, hmem⟩ := mem_parent_chain h ha hne
  rw [hi] at hi'
  cases hi'
  obtain ⟨implP, hp, _⟩ := exists_of_mem_chain hmem
  obtain ⟨_, hbegunA⟩ := begun_of_wellFormed h hA
  have hbase : scopes.baseId (some p) = implP.baseId := by
    unfold Scopes.baseId
    rw [Option.bind_some, hp]
  calc r.id < implA.baseId := (hbegunA.ids _ hr).2
    _ ≤ implP.baseId := baseId_le_of_ancestor h hmem hA hp
    _ = scopes.baseId (some p) := hbase.symm
    _ ≤ q.id := (hbegun.ids _ hq).1

/-- On one branch an id belongs to one scope. -/
theorem scope_unique {scopes : Scopes} (h : WellFormed scopes) {a b i : ScopeId}
    {t u : TypeHash} {r q : RegistrationInternal} (ha : a ∈ scopes.chain i)
    (hb : b ∈ scopes.chain i) (hr : r ∈ scopes.localRegs a t) (hq : q ∈ scopes.localRegs b u)
    (hid : r.id = q.id) : a = b := by
  by_contra hne
  rcases chain_total h ha hb with hab | hba
  · exact absurd hid (Nat.ne_of_lt (id_lt_of_ancestor h hab hne hr hq))
  · exact absurd hid.symm (Nat.ne_of_lt (id_lt_of_ancestor h hba (Ne.symm hne) hq hr))

/-! ## Slots -/

theorem findMatchingScope_mem {scopes : Scopes} {i owner : ScopeId} {tag : String}
    (h : scopes.findMatchingScope i tag = some owner) : owner ∈ scopes.chain i :=
  List.mem_of_find?_eq_some h

theorem owner_mem_chain {scopes : Scopes} {t : TypeHash} {i z owner : ScopeId}
    {r : RegistrationInternal} (h : Selects scopes t i r z owner) : owner ∈ scopes.chain z := by
  have howner := h.owner_eq
  unfold Scopes.ownerOf at howner
  cases hl : r.lifetime with
  | instancePerRequest | instancePerScope =>
    simp only [hl] at howner
    cases howner
    exact self_mem_chain (length_of_mem_chain h.enclosing)
  | instancePerMatchingScope =>
    simp only [hl] at howner
    exact findMatchingScope_mem howner
  | singleInstance =>
    simp only [hl] at howner
    cases howner
    exact h.enclosing

/-- The nearest scope with a tag is the same from any scope between. -/
theorem findMatchingScope_between {scopes : Scopes} (h : WellFormed scopes) {i z owner : ScopeId}
    {tag : String} (hi : i ∈ scopes.chain z) (howner : owner ∈ scopes.chain i)
    (hfind : scopes.findMatchingScope z tag = some owner) :
    scopes.findMatchingScope i tag = some owner := by
  obtain ⟨l, hl⟩ := chain_suffix h hi
  have hnodup := chain_nodup h z
  unfold Scopes.findMatchingScope at hfind ⊢
  rw [← hl] at hfind hnodup
  rw [List.find?_append] at hfind
  cases hbefore : l.find? (scopes.hasTag tag) with
  | none => simpa [hbefore] using hfind
  | some a =>
    rw [hbefore] at hfind
    cases hfind
    have hmem := List.mem_of_find?_eq_some hbefore
    exact absurd rfl ((List.nodup_append.mp hnodup).2.2 _ hmem _ howner)

/-- An instance of a scope that encloses the registering one is a matching-scope one. -/
theorem matching_of_not_mem {scopes : Scopes} (h : WellFormed scopes) {t : TypeHash}
    {i z owner : ScopeId} {r : RegistrationInternal} (hs : Selects scopes t i r z owner)
    (hl : r.lifetime ≠ .instancePerRequest) (hnot : i ∉ scopes.chain owner) :
    r.lifetime = .instancePerMatchingScope ∧
      scopes.findMatchingScope i r.tag = some owner := by
  have hmem := owner_mem_chain hs
  have hbetween : owner ∈ scopes.chain i :=
    (chain_total h hmem hs.enclosing).resolve_right hnot
  have howner := hs.owner_eq
  unfold Scopes.ownerOf at howner
  cases hl' : r.lifetime with
  | instancePerRequest => exact absurd hl' hl
  | instancePerScope =>
    simp only [hl'] at howner
    cases howner
    exact absurd hs.enclosing hnot
  | singleInstance =>
    simp only [hl'] at howner
    cases howner
    exact absurd (self_mem_chain (lt_length_of_mem_chain h hs.enclosing)) hnot
  | instancePerMatchingScope =>
    simp only [hl'] at howner
    exact ⟨rfl, findMatchingScope_between h hs.enclosing hbetween howner⟩

end TreeLemmas

open TreeLemmas

/-! ## Main results -/

/-- If no two scopes share a slot, the registrations of which instances are stored in a slot
are one. -/
theorem selects_unique {scopes : Scopes} (h : WellFormed scopes) (hshare : NoSharedSlot scopes)
    {t u : TypeHash} {i j z w owner : ScopeId} {r q : RegistrationInternal}
    (hr : Selects scopes t i r z owner) (hq : Selects scopes u j q w owner)
    (hrl : r.lifetime ≠ .instancePerRequest) (hql : q.lifetime ≠ .instancePerRequest)
    (hid : r.id = q.id) : i = j := by
  by_cases hi : i ∈ scopes.chain owner <;> by_cases hj : j ∈ scopes.chain owner
  · exact scope_unique h hi hj hr.registered hq.registered hid
  · -- Then `i` encloses the owner, and the owner encloses `j`.
    obtain ⟨_, hfind⟩ := matching_of_not_mem h hq hql hj
    have hi' := (chain_suffix h (findMatchingScope_mem hfind)).subset hi
    have hj' := self_mem_chain (lt_length_of_mem_chain h hq.enclosing)
    exact scope_unique h hi' hj' hr.registered hq.registered hid
  · obtain ⟨_, hfind⟩ := matching_of_not_mem h hr hrl hi
    have hj' := (chain_suffix h (findMatchingScope_mem hfind)).subset hj
    have hi' := self_mem_chain (lt_length_of_mem_chain h hr.enclosing)
    exact scope_unique h hi' hj' hr.registered hq.registered hid
  · obtain ⟨hrm, hrfind⟩ := matching_of_not_mem h hr hrl hi
    obtain ⟨hqm, hqfind⟩ := matching_of_not_mem h hq hql hj
    have htag : r.tag = q.tag := by
      have hr' := List.find?_some hrfind
      have hq' := List.find?_some hqfind
      unfold Scopes.hasTag at hr' hq'
      cases howner : scopes[owner]? with
      | none => simp [howner] at hr'
      | some impl =>
        simp only [howner, beq_iff_eq] at hr' hq'
        exact hr'.trans hq'.symm
    have hlt := List.mem_range.mpr (lt_length_of_mem_chain h hr.enclosing)
    have hlt' := List.mem_range.mpr (lt_length_of_mem_chain h hq.enclosing)
    refine hshare i hlt j hlt' r (mem_registrationsOf hr.registered) q
      (mem_registrationsOf hq.registered) ⟨hrm, hqm, htag, hid, ?_, hrfind.trans hqfind.symm⟩
    rw [hrfind]
    rfl

end Stormancer.Di
