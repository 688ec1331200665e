import Stormancer.P2P.Ownership

/-!
# The two tables of the connections repository

A connection is found by its id and by its key, or it is not stored. The tables are written
one after the other and each write can be void: `newConnection` keeps the attempt that is
pending under its key, and leaves the entry by key to the factory that made the connection. The
condition `Meets` excludes the steps after which the factory does not complete what was begun.

Results:
1. `consistent`: in every run whose steps meet `Meets`, in every quiescent state, a live
   connection is in `_connections` exactly when it is in `_connectionsByKey` under its own key,
   and no failed factory leaves an entry.
2. `failed_factory_leaves_connection`: the connection of a factory that fails after the
   transport connected stays in `_connections`.
-/

namespace Stormancer.P2P.ConnectionsRepository

open Slots RepositoryLemmas OwnershipLemmas

/-! ## The property -/

def InConnections (s : ConnectionsRepository) (c : IConnection) : Prop :=
  s.storedById c.id = some c

def InConnectionsByKey (s : ConnectionsRepository) (c : IConnection) : Prop :=
  s.storedByKey c.key = some c

/-- No attempt is pending, no `getConnection` is in progress and no handler has still to run. -/
def Quiescent (s : ConnectionsRepository) : Prop :=
  (∀ a ∈ s.attempts, a.result ≠ .pending) ∧ s.inserting = none ∧ ∀ hs ∈ s.firing, hs = []

/-- The tables agree on the live connections. -/
def Agree (s : ConnectionsRepository) : Prop :=
  ∀ c, s.Live c → (s.InConnections c ↔ s.InConnectionsByKey c)

/-- When the action is the failure of a factory, nothing is stored under its key and no live
connection with the key is in `_connections`. -/
def FailureLeavesNothing (s : ConnectionsRepository) (a : Action) (s' : ConnectionsRepository) :
    Prop :=
  ∀ n attempt, a = .factoryFails n → s.attempts[n]? = some attempt →
    s'.connectionsByKey.lookup attempt.id = none ∧
      ∀ c, s'.Live c → c.key = attempt.id → ¬ s'.InConnections c

/-- No entry by key is a failed task. -/
def NoFailedEntry (s : ConnectionsRepository) : Prop :=
  ∀ key t, s.connectionsByKey.lookup key = some t → s.result t ≠ .failed

instance (s : ConnectionsRepository) (c : IConnection) : Decidable (s.InConnections c) :=
  inferInstanceAs (Decidable (_ = _))

instance (s : ConnectionsRepository) (c : IConnection) : Decidable (s.InConnectionsByKey c) :=
  inferInstanceAs (Decidable (_ = _))

/-! ## The condition -/

/-- The task that the table by key has, or will have, for the key of a connection. -/
def taskOf (s : ConnectionsRepository) (c : IConnection) : Option Task := s.caching.lookup c.key

/-- The table by key has the connection, or will have it. -/
def Cached (s : ConnectionsRepository) (c : IConnection) : Prop :=
  (s.taskOf c).bind (fun t => (s.result t).connection) = some c

instance (s : ConnectionsRepository) (c : IConnection) : Decidable (s.Cached c) :=
  inferInstanceAs (Decidable (_ = _))

/-- The condition on a closing: of the other live connections that are stored, those that share
the id share the key too, and the other way round. -/
def NoHalfRival (s : ConnectionsRepository) (c : IConnection) : Prop :=
  ∀ o ∈ s.registered, s.Live o → o ≠ c → s.InConnections o ∨ s.Cached o →
    (o.id = c.id ↔ o.key = c.key ∧ s.insertingKey ≠ some o.key)

/-- The condition on a step.
- A new connection finds both entries free or both taken, or its key pending and its id free.
- A factory returns a connection whose entries by id and by key are then both its own or both
  not, and no other connection waits for it.
- A factory fails after its task was cached, and while no live connection of its key is in
  `_connections`.
- A closed connection shares its id and its key with another one, or none of them. -/
def Meets (s : ConnectionsRepository) : Action → Prop
  | .newConnection c =>
    if (s.storedById c.id).isSome then (s.connectionsByKey.lookup c.key).isSome = true
    else ∀ t ∈ s.connectionsByKey.lookup c.key, s.result t = .pending
  | .factorySucceeds n c =>
    (c ∉ s.closed →
      if ∀ o ∈ s.storedById c.id, o = c then
        ∃ t ∈ s.taskOf c, t = .attempt n ∨ s.result t = .pending ∨
          (s.result t).connection = some c
      else s.taskOf c ≠ some (.attempt n)) ∧
    ∀ o ∈ s.registered, s.Live o → o ≠ c → s.InConnections o → s.taskOf o ≠ some (.attempt n)
  | .factoryFails n =>
    (∀ p ∈ s.inserting, p.2 ≠ n) ∧ ∀ attempt ∈ s.attempts[n]?,
      ∀ o ∈ s.registered, s.Live o → s.InConnections o → o.key ≠ attempt.id
  | .closeConnection c => s.NoHalfRival c
  | .runHandler event =>
    ∀ handlers ∈ s.firing[event]?, ∀ h ∈ handlers.head?, s.NoHalfRival h.connection
  | _ => True

instance (s : ConnectionsRepository) (c : IConnection) : Decidable (s.NoHalfRival c) := by
  unfold NoHalfRival
  infer_instance

instance (s : ConnectionsRepository) : (a : Action) → Decidable (Meets s a)
  | .newConnection _ | .factorySucceeds _ _ | .factoryFails _ | .runHandler _ => by
    unfold Meets
    infer_instance
  | .closeConnection c => inferInstanceAs (Decidable (s.NoHalfRival c))
  | .addPendingConnection _ _ | .getConnection _ | .emplaceResult | .onClose _ =>
    inferInstanceAs (Decidable True)

instance (s : ConnectionsRepository) : Decidable s.Quiescent :=
  inferInstanceAs (Decidable (_ ∧ _))

/-! ## The invariant -/

structure Inv (s : ConnectionsRepository) : Prop where
  keyed : s.Keyed
  notFailed : NotFailed s
  /-- Only registered connections are stored. -/
  byId : ∀ id o, s.storedById id = some o → o ∈ s.registered
  byKey : ∀ key t o, s.caching.lookup key = some t → (s.result t).connection = some o →
    o ∈ s.registered
  /-- The handlers that have still to run are those of closed connections. -/
  closed : ∀ handlers ∈ s.firing, ∀ h ∈ handlers, h.connection ∈ s.closed
  /-- A live connection that is stored by id is stored by key, or waits for an attempt. -/
  waits : ∀ o, s.Live o → s.InConnections o →
    ∃ t, s.taskOf o = some t ∧ (s.result t = .pending ∨ (s.result t).connection = some o)
  /-- A live connection that is stored by key is stored by id. -/
  stored : ∀ o, s.Live o → s.Cached o → s.InConnections o

namespace ConsistencyLemmas

variable {s s' : ConnectionsRepository}

theorem cached_iff {o : IConnection} :
    s.Cached o ↔ ∃ t, s.taskOf o = some t ∧ (s.result t).connection = some o :=
  Option.bind_eq_some_iff

theorem inv_initial : Inv initial where
  keyed := keyed_initial
  notFailed _ _ h := nomatch h
  byId _ _ h := nomatch h
  byKey _ _ _ h := nomatch h
  closed _ h := nomatch h
  waits _ h := nomatch h.1
  stored _ h := nomatch h.1

/-! ### Entering a connection -/

/-- `_connections.emplace` as `newConnection` and the continuation of a factory do it. -/
theorem storedById_emplace {t : ConnectionsRepository} {c : IConnection} {n : Nat} {locks : Bool}
    (h : t.connections = s.connections.emplace c.id ⟨c, n, locks⟩) (id : UInt64) :
    t.storedById id =
      if id = c.id then some ((s.storedById id).getD c) else s.storedById id := by
  unfold storedById
  rw [h, Table.lookup_emplace]
  split
  · next heq =>
    rw [heq]
    cases s.connections.lookup c.id <;> rfl
  · rfl

/-- Another connection is stored by id as before. -/
theorem inConnections_other {t : ConnectionsRepository} {c o : IConnection} {n : Nat}
    {locks : Bool} (h : t.connections = s.connections.emplace c.id ⟨c, n, locks⟩) (hne : o ≠ c) :
    t.InConnections o ↔ s.InConnections o := by
  unfold InConnections
  rw [storedById_emplace h]
  split
  · cases s.storedById o.id with
    | none => simp [Ne.symm hne]
    | some x => simp
  · rfl

theorem inConnections_self {t : ConnectionsRepository} {c : IConnection} {n : Nat} {locks : Bool}
    (h : t.connections = s.connections.emplace c.id ⟨c, n, locks⟩) :
    t.InConnections c ↔ ∀ o ∈ s.storedById c.id, o = c := by
  unfold InConnections
  rw [storedById_emplace h, if_pos rfl]
  cases s.storedById c.id with
  | none => simp
  | some x => simp

theorem byId_emplace {t : ConnectionsRepository} {c : IConnection} {n : Nat} {locks : Bool}
    (h : t.connections = s.connections.emplace c.id ⟨c, n, locks⟩)
    (hreg : t.registered = c :: s.registered) (hi : s.Inv) (id : UInt64) (o : IConnection)
    (ho : t.storedById id = some o) : o ∈ t.registered := by
  rw [hreg]
  rw [storedById_emplace h] at ho
  split at ho
  · cases hold : s.storedById id with
    | none =>
      rw [hold] at ho
      cases ho
      exact List.mem_cons_self
    | some x =>
      rw [hold] at ho
      cases ho
      exact List.mem_cons_of_mem _ (hi.byId id _ hold)
  · exact List.mem_cons_of_mem _ (hi.byId id o ho)

theorem live_of_registers {t : ConnectionsRepository} {c o : IConnection}
    (hreg : t.registered = c :: s.registered) (hclosed : t.closed = s.closed) (hne : o ≠ c)
    (h : t.Live o) : s.Live o := by
  unfold Live at h ⊢
  rw [hreg, hclosed] at h
  exact ⟨(List.mem_cons.mp h.1).resolve_left hne, h.2⟩

/-- What the table by key has for a key after a new connection was entered. -/
theorem caching_newConnection_cases (hfree : s.inserting = none) {c : IConnection} {key : Str}
    {t : Task} (h : (s.newConnection c).caching.lookup key = some t) :
    s.caching.lookup key = some t ∨
      key = c.key ∧ s.caching.lookup key = none ∧
        t = .fromResult ⟨c, s.nextSubscription, true⟩ := by
  rw [lookup_caching_newConnection hfree] at h
  split at h
  · next hkey =>
    subst hkey
    cases hold : s.caching.lookup c.key with
    | none =>
      rw [hold] at h
      exact .inr ⟨rfl, rfl, (Option.some.inj h).symm⟩
    | some t' =>
      rw [hold] at h
      exact .inl h
  · exact .inl h

theorem inv_newConnection {c : IConnection} (hi : s.Inv) (hg : Meets s (.newConnection c))
    (hfree : s.inserting = none) (hnew : c ∉ s.registered) (hk : (s.newConnection c).Keyed)
    (hn : NotFailed (s.newConnection c)) : (s.newConnection c).Inv := by
  have hcaching := lookup_caching_newConnection hfree c
  have hcases := @caching_newConnection_cases s hfree c
  obtain ⟨pending, established, heq⟩ := newConnection_eq s c
  have hconnections : (s.newConnection c).connections =
      s.connections.emplace c.id ⟨c, s.nextSubscription, true⟩ := by rw [heq]
  have hreg : (s.newConnection c).registered = c :: s.registered := by rw [heq]
  have hclosed : (s.newConnection c).closed = s.closed := by rw [heq]
  have hfiring : (s.newConnection c).firing = s.firing := by rw [heq]
  have hresult : (s.newConnection c).result = s.result := by
    rw [heq]
    rfl
  generalize s.newConnection c = s' at *
  refine ⟨hk, hn, byId_emplace hconnections hreg hi, ?_, ?_, ?_, ?_⟩
  · intro key t o hlookup ho
    rw [hreg]
    rw [hresult] at ho
    rcases hcases hlookup with hold | ⟨-, -, rfl⟩
    · exact List.mem_cons_of_mem _ (hi.byKey key t o hold ho)
    · cases ho
      exact List.mem_cons_self
  · rw [hfiring, hclosed]
    exact hi.closed
  · intro o hlive hin
    rcases eq_or_ne o c with rfl | hne
    · -- The id was free, so the key is free or pending.
      have hfreeId : s.storedById o.id = none := by
        rw [Option.eq_none_iff_forall_ne_some]
        intro x hx
        have hself := (inConnections_self hconnections).mp hin x hx
        exact hnew (hself ▸ hi.byId o.id x hx)
      simp only [Meets, hfreeId, Option.isSome_none, Bool.false_eq_true, if_false] at hg
      unfold taskOf
      rw [hresult, hcaching, if_pos rfl, caching_of_not_inserting hfree]
      cases hold : s.connectionsByKey.lookup o.key with
      | none => exact ⟨_, rfl, .inr rfl⟩
      | some t => exact ⟨t, rfl, .inl (hg t hold)⟩
    · obtain ⟨t, ht, hwaits⟩ := hi.waits o (live_of_registers hreg hclosed hne hlive)
        ((inConnections_other hconnections hne).mp hin)
      refine ⟨t, ?_, hresult ▸ hwaits⟩
      unfold taskOf at ht ⊢
      rw [hcaching]
      split
      · next hkey => rw [← hkey, ht, Option.getD_some]
      · exact ht
  · intro o hlive hcached
    obtain ⟨t, ht, ho⟩ := cached_iff.mp hcached
    rw [hresult] at ho
    rcases eq_or_ne o c with rfl | hne
    · -- The key was free, so the id was.
      rcases hcases ht with hold | ⟨-, hold, -⟩
      · exact absurd (hi.byKey o.key t o hold ho) hnew
      · rw [caching_of_not_inserting hfree] at hold
        refine (inConnections_self hconnections).mpr ?_
        intro x hx
        simp [Meets, Option.mem_def.mp hx, hold] at hg
    · refine (inConnections_other hconnections hne).mpr ?_
      refine hi.stored o (live_of_registers hreg hclosed hne hlive) (cached_iff.mpr ?_)
      rcases hcases ht with hold | ⟨-, -, rfl⟩
      · exact ⟨t, hold, ho⟩
      · cases ho
        exact absurd rfl hne

/-! ### Attempts -/

theorem inv_startFactory {id : Str} (hi : s.Inv) (hfree : s.inserting = none)
    (hnone : s.connectionsByKey.lookup id = none) (hk : (s.startFactory id).Keyed)
    (hn : NotFailed (s.startFactory id)) : (s.startFactory id).Inv := by
  have hcaching := fun key => lookup_caching_startFactory hfree key hnone
  have hpending : (s.startFactory id).result (.attempt s.attempts.length) = .pending := by
    simp [result, startFactory, Task.result]
  refine ⟨hk, hn, hi.byId, ?_, hi.closed, ?_, ?_⟩
  · intro key t o hlookup ho
    rw [hcaching] at hlookup
    split at hlookup
    · cases hlookup
      rw [hpending] at ho
      cases ho
    · rw [result_startFactory hi.keyed hlookup] at ho
      exact hi.byKey key t o hlookup ho
  · intro o hlive hin
    obtain ⟨t, ht, hwaits⟩ := hi.waits o hlive hin
    refine ⟨t, ?_, result_startFactory hi.keyed ht id ▸ hwaits⟩
    unfold taskOf at ht ⊢
    rw [hcaching, if_neg]
    · exact ht
    · rintro rfl
      rw [caching_of_not_inserting hfree, hnone] at ht
      cases ht
  · intro o hlive hcached
    obtain ⟨t, ht, ho⟩ := cached_iff.mp hcached
    unfold taskOf at ht
    rw [hcaching] at ht
    split at ht
    · cases ht
      rw [hpending] at ho
      cases ho
    · rw [result_startFactory hi.keyed ht] at ho
      exact hi.stored o hlive (cached_iff.mpr ⟨t, ht, ho⟩)

theorem inv_emplaceResult {id : Str} {n : Nat} (hi : s.Inv) (hins : s.inserting = some (id, n))
    (hk : (s.emplaceResult id n).Keyed) (hn : NotFailed (s.emplaceResult id n)) :
    (s.emplaceResult id n).Inv := by
  have hcaching := caching_emplaceResult hins
  refine ⟨hk, hn, hi.byId, ?_, hi.closed, ?_, ?_⟩
  · rw [hcaching]
    exact hi.byKey
  · intro o hlive hin
    unfold taskOf
    rw [hcaching]
    exact hi.waits o hlive hin
  · intro o hlive hcached
    unfold Cached taskOf at hcached
    rw [hcaching] at hcached
    exact hi.stored o hlive hcached

theorem inv_factorySucceeds {n : Nat} {c : IConnection} {a : Attempt} (hi : s.Inv)
    (hg : Meets s (.factorySucceeds n c)) (ha : s.attempts[n]? = some a)
    (hk : (s.factorySucceeds n c).Keyed) (hn : NotFailed (s.factorySucceeds n c)) :
    (s.factorySucceeds n c).Inv := by
  obtain ⟨hself, hothers⟩ := hg
  have hconnections : (s.factorySucceeds n c).connections =
      s.connections.emplace c.id ⟨c, s.nextSubscription, false⟩ := rfl
  have hown : (s.factorySucceeds n c).result (.attempt n) =
      .container ⟨c, s.nextSubscription, false⟩ := result_setResult_self ha _
  have hother : ∀ t, t ≠ .attempt n → (s.factorySucceeds n c).result t = s.result t :=
    fun _ => result_setResult_other _
  refine ⟨hk, hn, byId_emplace hconnections rfl hi, ?_, hi.closed, ?_, ?_⟩
  · intro key t o hlookup ho
    by_cases ht : t = .attempt n
    · subst ht
      rw [hown] at ho
      cases ho
      exact List.mem_cons_self
    · rw [hother t ht] at ho
      exact List.mem_cons_of_mem _ (hi.byKey key t o hlookup ho)
  · intro o hlive hin
    rcases eq_or_ne o c with rfl | hne
    · have hfree := (inConnections_self hconnections).mp hin
      have htask := hself hlive.2
      rw [if_pos hfree] at htask
      obtain ⟨t, ht, hcase⟩ := htask
      refine ⟨t, ht, ?_⟩
      by_cases hattempt : t = .attempt n
      · subst hattempt
        rw [hown]
        exact .inr rfl
      · rw [hother t hattempt]
        exact hcase.resolve_left hattempt
    · have hlive' := live_of_registers (t := s.factorySucceeds n c) rfl rfl hne hlive
      have hin' := (inConnections_other hconnections hne).mp hin
      obtain ⟨t, ht, hwaits⟩ := hi.waits o hlive' hin'
      refine ⟨t, ht, ?_⟩
      rw [hother t]
      · exact hwaits
      · rintro rfl
        exact hothers o hlive'.1 hlive' hne hin' ht
  · intro o hlive hcached
    obtain ⟨t, ht, ho⟩ := cached_iff.mp hcached
    by_cases hattempt : t = .attempt n
    · -- The attempt completed with the connection itself.
      subst hattempt
      rw [hown] at ho
      cases ho
      refine (inConnections_self hconnections).mpr ?_
      by_contra hfree
      have htask := hself hlive.2
      rw [if_neg hfree] at htask
      exact htask ht
    · rw [hother t hattempt] at ho
      have hreg := hi.byKey o.key t o ht ho
      have hin := hi.stored o ⟨hreg, hlive.2⟩ (cached_iff.mpr ⟨t, ht, ho⟩)
      rcases eq_or_ne o c with rfl | hne
      · refine (inConnections_self hconnections).mpr ?_
        intro x hx
        rw [Option.mem_def, hin] at hx
        exact (Option.some.inj hx).symm
      · exact (inConnections_other hconnections hne).mpr hin

theorem inv_factoryFails {n : Nat} {a : Attempt} (hi : s.Inv) (hg : Meets s (.factoryFails n))
    (ha : s.attempts[n]? = some a) (hk : (s.factoryFails n a).Keyed)
    (hn : NotFailed (s.factoryFails n a)) : (s.factoryFails n a).Inv := by
  have hcaching := fun key => lookup_caching_erase hi.keyed (t := s.factoryFails n a) key rfl rfl
  have hkept : ∀ key t, (s.factoryFails n a).caching.lookup key = some t →
      s.caching.lookup key = some t := by
    intro key t h
    rw [hcaching] at h
    split at h
    · cases h
    · exact h
  have hresult : ∀ t, t ≠ .attempt n → (s.factoryFails n a).result t = s.result t :=
    fun _ => result_setResult_other _
  have hfailed : (s.factoryFails n a).result (.attempt n) = .failed := result_setResult_self ha _
  have hother : ∀ t o, ((s.factoryFails n a).result t).connection = some o →
      (s.result t).connection = some o := by
    intro t o ho
    by_cases ht : t = .attempt n
    · subst ht
      rw [hfailed] at ho
      cases ho
    · rwa [hresult t ht] at ho
  refine ⟨hk, hn, hi.byId, ?_, hi.closed, ?_, ?_⟩
  · intro key t o hlookup ho
    exact hi.byKey key t o (hkept key t hlookup) (hother t o ho)
  · intro o hlive hin
    obtain ⟨t, ht, hwaits⟩ := hi.waits o hlive hin
    have hkey : o.key ≠ a.id := hg.2 a ha o hlive.1 hlive hin
    refine ⟨t, ?_, ?_⟩
    · unfold taskOf
      rw [hcaching, if_neg fun h => hkey h.1]
      exact ht
    · rw [hresult t]
      · exact hwaits
      · rintro rfl
        obtain ⟨b, hb, hid⟩ := hi.keyed.attempt o.key n ht
        rw [ha] at hb
        cases hb
        exact hkey hid.symm
  · intro o hlive hcached
    obtain ⟨t, ht, ho⟩ := cached_iff.mp hcached
    exact hi.stored o hlive (cached_iff.mpr ⟨t, hkept _ t ht, hother t o ho⟩)

/-! ### Closings -/

/-- What `closeConnection` and the handlers of `onClose` leave, when the connection is closed. -/
theorem inv_erase {c : IConnection} (hi : s.Inv) (hg : s.NoHalfRival c)
    {t : ConnectionsRepository} (hconnections : t.connections = (s.erase c).connections)
    (hbyKey : t.connectionsByKey = (s.erase c).connectionsByKey)
    (hattempts : t.attempts = s.attempts) (hins : t.inserting = s.inserting)
    (hreg : t.registered = s.registered) (hclosed : ∀ o, o ∉ t.closed → o ∉ s.closed ∧ o ≠ c)
    (hfiring : ∀ handlers ∈ t.firing, ∀ h ∈ handlers, h.connection ∈ t.closed)
    (hk : t.Keyed) (hn : NotFailed t) : t.Inv := by
  have hcaching := fun key => lookup_caching_erase hi.keyed key hbyKey hins
  have hbyId : ∀ id, t.storedById id = if id = c.id then none else s.storedById id := by
    intro id
    rw [← storedById_erase]
    unfold storedById
    rw [hconnections]
  have hresult : t.result = s.result := by
    unfold result
    rw [hattempts]
  refine ⟨hk, hn, ?_, ?_, hfiring, ?_, ?_⟩
  · intro id o ho
    rw [hbyId] at ho
    split at ho
    · cases ho
    · rw [hreg]
      exact hi.byId id o ho
  · intro key u o hlookup ho
    rw [hcaching] at hlookup
    rw [hresult] at ho
    split at hlookup
    · cases hlookup
    · rw [hreg]
      exact hi.byKey key u o hlookup ho
  · intro o hlive hin
    obtain ⟨hopen, hne⟩ := hclosed o hlive.2
    have hlive' : s.Live o := ⟨hreg ▸ hlive.1, hopen⟩
    unfold InConnections at hin
    rw [hbyId] at hin
    split at hin
    · cases hin
    · next hid =>
      have hkey := mt (hg o hlive'.1 hlive' hne (.inl hin)).mpr hid
      obtain ⟨u, hu, hwaits⟩ := hi.waits o hlive' hin
      refine ⟨u, ?_, hresult ▸ hwaits⟩
      unfold taskOf
      rw [hcaching, if_neg hkey]
      exact hu
  · intro o hlive hcached
    obtain ⟨hopen, hne⟩ := hclosed o hlive.2
    have hlive' : s.Live o := ⟨hreg ▸ hlive.1, hopen⟩
    obtain ⟨u, hu, ho⟩ := cached_iff.mp hcached
    unfold taskOf at hu
    rw [hcaching] at hu
    rw [hresult] at ho
    split at hu
    · cases hu
    · next hkey =>
      have hold : s.Cached o := cached_iff.mpr ⟨u, hu, ho⟩
      have hid := mt (hg o hlive'.1 hlive' hne (.inr hold)).mp hkey
      unfold InConnections
      rw [hbyId, if_neg hid]
      exact hi.stored o hlive' hold

theorem mem_handlers {c : IConnection} {h : ConnectionContainer} (hmem : h ∈ s.handlers c) :
    h.connection = c := by
  unfold handlers at hmem
  obtain ⟨n, -, hfind⟩ := List.mem_filterMap.mp hmem
  have hprop := List.find?_some hfind
  exact (of_decide_eq_true hprop).2

theorem inv_onClose {c : IConnection} (hi : s.Inv) (hk : (s.onClose c).Keyed)
    (hn : NotFailed (s.onClose c)) : (s.onClose c).Inv := by
  have hlive : ∀ o, (s.onClose c).Live o → s.Live o := by
    rintro o ⟨hreg, hclosed⟩
    exact ⟨hreg, fun h => hclosed (List.mem_cons_of_mem _ h)⟩
  refine ⟨hk, hn, hi.byId, hi.byKey, ?_, ?_, ?_⟩
  · intro handlers hmem h hh
    rcases List.mem_append.mp hmem with hmem | hmem
    · exact List.mem_cons_of_mem _ (hi.closed handlers hmem h hh)
    · rw [List.mem_singleton.mp hmem] at hh
      rw [mem_handlers hh]
      exact List.mem_cons_self
  · intro o ho
    exact hi.waits o (hlive o ho)
  · intro o ho
    exact hi.stored o (hlive o ho)

theorem inv_step {s s' : ConnectionsRepository} {a : Action} (hi : s.Inv) (hg : Meets s a)
    (h : step s a = some s') : s'.Inv := by
  have htransition := transition_of_step h
  have hk := keyed_step hi.keyed htransition
  have hguard : FailsAfterCaching s a := by
    cases a with
    | factoryFails n => exact hg.1
    | _ => trivial
  have hn := notFailed_step hi.keyed hi.notFailed hguard htransition
  cases htransition with
  | addPendingConnection id sessionId =>
    exact ⟨hk, hn, hi.byId, hi.byKey, hi.closed, hi.waits, hi.stored⟩
  | newConnection c hfree hnew => exact inv_newConnection hi hg hfree hnew hk hn
  | found => exact hi
  | started id hfree hnone => exact inv_startFactory hi hfree hnone hk hn
  | emplaceResult id n hins => exact inv_emplaceResult hi hins hk hn
  | factorySucceeds n c a ha => exact inv_factorySucceeds hi hg ha hk hn
  | factoryFails n a ha => exact inv_factoryFails hi hg ha hk hn
  | closeConnection c hfree =>
    refine inv_erase (t := s.closeConnection c) hi hg rfl rfl rfl rfl rfl ?_ ?_ hk hn
    · intro o ho
      exact ⟨fun h => ho (List.mem_cons_of_mem _ h), fun h => ho (h ▸ List.mem_cons_self)⟩
    · intro handlers hmem h hh
      exact List.mem_cons_of_mem _ (hi.closed handlers hmem h hh)
  | onClose c => exact inv_onClose hi hk hn
  | runHandler event handler rest hnext =>
    have hmem := List.mem_of_getElem? hnext
    refine inv_erase (c := handler.connection) hi ?_ rfl rfl rfl rfl rfl ?_ ?_ hk hn
    · exact hg _ hnext handler rfl
    · intro o ho
      refine ⟨ho, ?_⟩
      rintro rfl
      exact ho (hi.closed _ hmem handler List.mem_cons_self)
    · intro handlers hset c hc
      rcases List.mem_or_eq_of_mem_set hset with hold | rfl
      · exact hi.closed handlers hold c hc
      · exact hi.closed _ hmem c (List.mem_cons_of_mem _ hc)

/-! ### What the invariant gives -/

theorem noFailedEntry_of_inv (hi : s.Inv) : s.NoFailedEntry := by
  intro key t hlookup
  refine hi.notFailed key t ?_
  unfold caching
  split
  · exact hlookup
  · next id n hins =>
    have hnone := hi.keyed.inserting id n hins
    rw [Table.lookup_emplace, if_neg]
    · exact hlookup
    · rintro rfl
      rw [hnone] at hlookup
      cases hlookup

theorem not_pending_of_quiescent (hq : s.Quiescent) (t : Task) : s.result t ≠ .pending := by
  cases t with
  | fromResult c => nofun
  | attempt n =>
    cases hget : s.attempts[n]? with
    | none => simp [result, Task.result, hget]
    | some a => simpa [result, Task.result, hget] using hq.1 a (List.mem_of_getElem? hget)

theorem agree_of_inv (hi : s.Inv) (hq : s.Quiescent) : s.Agree := by
  intro c hlive
  have hcaching := caching_of_not_inserting hq.2.1
  have hkey : s.InConnectionsByKey c ↔ s.Cached c := by
    unfold InConnectionsByKey storedByKey Cached taskOf
    rw [hcaching]
  rw [hkey]
  constructor
  · intro hin
    obtain ⟨t, ht, hwaits⟩ := hi.waits c hlive hin
    exact cached_iff.mpr ⟨t, ht, hwaits.resolve_left (not_pending_of_quiescent hq t)⟩
  · exact hi.stored c hlive

theorem failureLeavesNothing_step {a : Action} (hg : Meets s a) (h : Transition s a s') :
    FailureLeavesNothing s a s' := by
  rintro n attempt rfl hget
  cases h with
  | factoryFails n a ha hpending =>
    rw [ha] at hget
    cases hget
    constructor
    · unfold factoryFails
      rw [Table.lookup_erase_eq, if_pos rfl]
    · intro c hlive hkey hin
      exact hg.2 _ ha c hlive.1 hlive hin hkey

end ConsistencyLemmas

open ConsistencyLemmas

/-! ## Main results -/

/-- In every run whose steps meet the condition: no failed task is stored, the tables agree on
the live connections when nothing is outstanding, and a factory that fails leaves no entry. -/
theorem consistent {s : ConnectionsRepository} (h : Lts.Reachable step Meets initial s) :
    s.NoFailedEntry ∧ (s.Quiescent → s.Agree) ∧
      ∀ a s', Meets s a → step s a = some s' → FailureLeavesNothing s a s' := by
  have hi := h.invariant inv_initial fun s a s' => inv_step
  refine ⟨noFailedEntry_of_inv hi, agree_of_inv hi, ?_⟩
  intro a s' hg hs
  exact failureLeavesNothing_step hg (transition_of_step hs)

/-- The connection to the server as `ensureConnectedToServer` makes it: the transport enters it
with `newConnection`, then the factory returns it. -/
def connected : List Action :=
  [.getConnection ['k'], .emplaceResult, .newConnection ⟨0, 7, ['k']⟩,
    .factorySucceeds 0 ⟨0, 7, ['k']⟩]

theorem consistent_connected :
    ∃ s, Lts.Reachable step Meets initial s ∧ s.Live ⟨0, 7, ['k']⟩ ∧ s.Quiescent ∧ s.Agree := by
  obtain ⟨s, hs, hp⟩ := Lts.Reachable.of_exec step Meets initial connected
    (fun s => decide (s.Live ⟨0, 7, ['k']⟩) && decide s.Quiescent) (by decide)
  rw [Bool.and_eq_true, decide_eq_true_eq, decide_eq_true_eq] at hp
  exact ⟨s, hs, hp.1, hp.2, (consistent hs).2.1 hp.2⟩

/-- The transport connects, and a later stage of the factory fails (`updatePeerMetadata`, say). -/
def failedAfterConnect : List Action :=
  [.getConnection ['k'], .emplaceResult, .newConnection ⟨0, 7, ['k']⟩, .factoryFails 0]

/-- The connection of the failed factory is alive and stays in `_connections` only. -/
theorem failed_factory_leaves_connection :
    ¬ ∀ s, Lts.Reachable step Lts.anyStep initial s →
      (s.Quiescent → s.Agree) ∧ ∀ a s', step s a = some s' → FailureLeavesNothing s a s' := by
  intro hclaim
  obtain ⟨s, hs, hp⟩ := Lts.Reachable.of_exec step Lts.anyStep initial failedAfterConnect
    (fun s => decide (s.Live ⟨0, 7, ['k']⟩ ∧ s.Quiescent ∧ s.InConnections ⟨0, 7, ['k']⟩ ∧
      ¬ s.InConnectionsByKey ⟨0, 7, ['k']⟩)) (by decide)
  obtain ⟨hlive, hq, hin, hnot⟩ := of_decide_eq_true hp
  exact hnot (((hclaim s hs).1 hq _ hlive).mp hin)

end Stormancer.P2P.ConnectionsRepository
