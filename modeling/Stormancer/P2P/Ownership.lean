import Stormancer.P2P.ConnectionsRepository

/-!
# Entries of the connections repository belong to their connection

Both erasures of the repository are by id and by key, whatever the entry holds: a late
`closeConnection`, or a handler of `onClose` that runs late, erases the entries of the
connection that replaced its own. The failure of a factory erases the key at once, so that
nothing is erased when it comes before the `emplace` of its task.

Results:
1. `entries_belong`: in every run in which no factory fails before its task is cached, no later
   call gets a failed task. A closing leaves the other connections alone exactly when the
   entries under its id and its key are its own.
2. `late_close_removes_other`: without these conditions a failed task is returned, and a late
   closing removes another connection.
-/

namespace Stormancer.P2P.ConnectionsRepository

open Slots RepositoryLemmas

/-! ## The property -/

/-- A factory does not fail before its task is cached. -/
def FailsAfterCaching (s : ConnectionsRepository) : Action → Prop
  | .factoryFails n => ∀ p ∈ s.inserting, p.2 ≠ n
  | _ => True

instance (s : ConnectionsRepository) : (a : Action) → Decidable (FailsAfterCaching s a)
  | .factoryFails _ => by unfold FailsAfterCaching; infer_instance
  | .addPendingConnection _ _ | .newConnection _ | .getConnection _ | .emplaceResult
  | .factorySucceeds _ _ | .closeConnection _ | .onClose _ | .runHandler _ =>
    inferInstanceAs (Decidable True)

/-- A call of the keyed `getConnection` does not return a failed task. -/
def ReturnsNoFailure (s : ConnectionsRepository) : Prop :=
  s.inserting = none →
    ∀ key, (s.getConnection key).2.result (s.getConnection key).1 ≠ .failed

/-- The connection that a closing action closes. -/
def closing (s : ConnectionsRepository) : Action → Option IConnection
  | .closeConnection c => some c
  | .runHandler event => (s.firing[event]?).bind fun handlers => handlers.head?.map (·.connection)
  | _ => none

def storedById (s : ConnectionsRepository) (id : UInt64) : Option IConnection :=
  (s.connections.lookup id).map (·.connection)

def storedByKey (s : ConnectionsRepository) (key : Str) : Option IConnection :=
  (s.connectionsByKey.lookup key).bind fun t => (s.result t).connection

/-- Every other connection keeps its entries. -/
def KeepsOthers (c : IConnection) (s s' : ConnectionsRepository) : Prop :=
  ∀ o ≠ c, (∀ id, s.storedById id = some o → s'.storedById id = some o) ∧
    ∀ key, s.storedByKey key = some o → s'.storedByKey key = some o

/-- Nothing but the connection is stored under its id and its key. -/
def OwnsEntries (s : ConnectionsRepository) (c : IConnection) : Prop :=
  (∀ o ∈ s.storedById c.id, o = c) ∧ ∀ o ∈ s.storedByKey c.key, o = c

/-! ## Lemmas -/

namespace OwnershipLemmas

variable {s s' : ConnectionsRepository}

/-- No cached task has failed. -/
def NotFailed (s : ConnectionsRepository) : Prop :=
  ∀ key t, s.caching.lookup key = some t → s.result t ≠ .failed

theorem notFailed_erase (hk : s.Keyed) (hn : NotFailed s) {erased : Str}
    (hbyKey : s'.connectionsByKey = s.connectionsByKey.erase erased)
    (hins : s'.inserting = s.inserting) (hresult : ∀ t, s'.result t = s.result t) :
    NotFailed s' := by
  intro key t hlookup
  rw [lookup_caching_erase hk key hbyKey hins] at hlookup
  rw [hresult]
  split at hlookup
  · cases hlookup
  · exact hn key t hlookup

theorem notFailed_step {a : Action} (hk : s.Keyed) (hn : NotFailed s)
    (hg : FailsAfterCaching s a) (h : Transition s a s') : NotFailed s' := by
  cases h with
  | addPendingConnection | onClose | found => exact hn
  | newConnection c hfree =>
    obtain ⟨pending, established, heq⟩ := newConnection_eq s c
    intro key t hlookup
    rw [lookup_caching_newConnection hfree] at hlookup
    have hresult : (s.newConnection c).result t = s.result t := by
      rw [heq]
      rfl
    rw [hresult]
    split at hlookup
    · cases hold : s.caching.lookup c.key with
      | none =>
        simp only [hold, Option.getD_none, Option.some.injEq] at hlookup
        subst hlookup
        simp [result, Task.result]
      | some t' =>
        simp only [hold, Option.getD_some, Option.some.injEq] at hlookup
        exact hn c.key t (hlookup ▸ hold)
    · exact hn key t hlookup
  | started id hfree hnone =>
    intro key t hlookup
    rw [lookup_caching_startFactory hfree key hnone] at hlookup
    split at hlookup
    · cases hlookup
      simp [result, startFactory, Task.result]
    · rw [result_startFactory hk hlookup]
      exact hn key t hlookup
  | emplaceResult id n hins =>
    intro key t hlookup
    rw [caching_emplaceResult hins] at hlookup
    exact hn key t hlookup
  | factorySucceeds n c a ha =>
    intro key t hlookup
    unfold result factorySucceeds
    by_cases ht : t = .attempt n
    · rw [ht, result_setResult_self ha]
      simp
    · rw [result_setResult_other _ ht]
      exact hn key t hlookup
  | factoryFails n a ha =>
    intro key t hlookup
    rw [lookup_caching_erase hk (t := s.factoryFails n a) key rfl rfl] at hlookup
    split at hlookup
    · cases hlookup
    · next hkept =>
      unfold result factoryFails
      rw [result_setResult_other]
      · exact hn key t hlookup
      · -- The attempt that fails is cached under its own key, so it is the one in progress.
        rintro rfl
        obtain ⟨b, hb, hid⟩ := hk.attempt key n hlookup
        rw [ha] at hb
        cases hb
        refine hkept ⟨hid.symm, ?_⟩
        intro hins
        obtain ⟨⟨id, k⟩, hp, hkey⟩ := Option.map_eq_some_iff.mp hins
        cases hkey
        rw [lookup_caching_inserting hk hp] at hlookup
        cases hlookup
        exact hg _ hp rfl
  | closeConnection c hfree => exact notFailed_erase hk hn rfl rfl fun _ => rfl
  | runHandler event handler rest hnext => exact notFailed_erase hk hn rfl rfl fun _ => rfl

theorem returnsNoFailure_of_notFailed (hn : NotFailed s) : ReturnsNoFailure s := by
  intro hfree key
  unfold getConnection
  split
  · next t hfound => exact hn key t ((caching_of_not_inserting hfree).symm ▸ hfound)
  · simp [result, startFactory, Task.result]

/-! ### Closings -/

theorem storedById_erase (s : ConnectionsRepository) (c : IConnection) (id : UInt64) :
    (s.erase c).storedById id = if id = c.id then none else s.storedById id := by
  unfold storedById erase
  rw [Table.lookup_erase_eq]
  split <;> rfl

theorem storedByKey_erase (s : ConnectionsRepository) (c : IConnection) (key : Str) :
    (s.erase c).storedByKey key = if key = c.key then none else s.storedByKey key := by
  unfold storedByKey erase
  rw [Table.lookup_erase_eq]
  split <;> rfl

theorem keepsOthers_erase_iff (s : ConnectionsRepository) (c : IConnection) :
    KeepsOthers c s (s.erase c) ↔ s.OwnsEntries c := by
  constructor
  · intro hkeeps
    constructor
    · intro o ho
      by_contra hne
      have hkept := (hkeeps o hne).1 c.id ho
      rw [storedById_erase, if_pos rfl] at hkept
      cases hkept
    · intro o ho
      by_contra hne
      have hkept := (hkeeps o hne).2 c.key ho
      rw [storedByKey_erase, if_pos rfl] at hkept
      cases hkept
  · rintro ⟨hid, hkey⟩ o hne
    constructor
    · intro id ho
      rw [storedById_erase, if_neg]
      · exact ho
      · rintro rfl
        exact hne (hid o ho)
    · intro key ho
      rw [storedByKey_erase, if_neg]
      · exact ho
      · rintro rfl
        exact hne (hkey o ho)

/-- Both closing actions leave the tables as an erasure does. -/
theorem keepsOthers_of_closing {a : Action} {c : IConnection} (h : Transition s a s')
    (hc : s.closing a = some c) : KeepsOthers c s s' ↔ KeepsOthers c s (s.erase c) := by
  cases h with
  | closeConnection c' =>
    cases hc
    rfl
  | runHandler event handler rest hnext =>
    simp only [closing, hnext, Option.bind_some, List.head?_cons, Option.map_some,
      Option.some.injEq] at hc
    subst hc
    rfl
  | _ => cases hc

end OwnershipLemmas

open OwnershipLemmas

/-! ## Main results -/

/-- In every run in which no factory fails before its task is cached, no later call gets a failed
task, and a closing leaves the other connections alone exactly when the entries under the id and
the key of its connection are its own. -/
theorem entries_belong {s : ConnectionsRepository}
    (h : Lts.Reachable step FailsAfterCaching initial s) :
    s.ReturnsNoFailure ∧ ∀ a c s', step s a = some s' → s.closing a = some c →
      (KeepsOthers c s s' ↔ s.OwnsEntries c) := by
  constructor
  · have hinv : s.Keyed ∧ NotFailed s := by
      refine h.invariant (I := fun s => s.Keyed ∧ NotFailed s) ⟨keyed_initial, ?_⟩ ?_
      · intro key t hlookup
        cases hlookup
      · rintro s a s' ⟨hk, hn⟩ hg hs
        have htransition := transition_of_step hs
        exact ⟨keyed_step hk htransition, notFailed_step hk hn hg htransition⟩
    exact returnsNoFailure_of_notFailed hinv.2
  · intro a c s' hs hc
    rw [keepsOthers_of_closing (transition_of_step hs) hc]
    exact keepsOthers_erase_iff s c

/-- The factory of the key fails after its task was cached. -/
def failedFactory : List Action :=
  [.getConnection ['k'], .emplaceResult, .factoryFails 0]

theorem entries_belong_after_failure :
    ∃ s, Lts.Reachable step FailsAfterCaching initial s ∧ s.ReturnsNoFailure := by
  obtain ⟨s, hs, -⟩ := Lts.Reachable.of_exec step FailsAfterCaching initial failedFactory
    (fun _ => true) (by decide)
  exact ⟨s, hs, (entries_belong hs).1⟩

/-- The factory of the key fails before its task is cached. -/
def earlyFailure : List Action :=
  [.getConnection ['k'], .factoryFails 0, .emplaceResult]

/-- The connection to the server is closed, and a new one is made before the transport reports
the disconnection of the old one. -/
def reconnection : List Action :=
  [.newConnection ⟨0, 7, ['k']⟩, .onClose ⟨0, 7, ['k']⟩, .runHandler 0,
    .newConnection ⟨1, 7, ['k']⟩]

/-- Without the conditions both parts fail: the failed task stays cached and is returned, and the
late `closeConnection` of the old connection removes the new one. -/
theorem late_close_removes_other :
    (¬ ∀ s, Lts.Reachable step Lts.anyStep initial s → s.ReturnsNoFailure) ∧
      ¬ ∀ s a c s', Lts.Reachable step Lts.anyStep initial s → step s a = some s' →
        s.closing a = some c → KeepsOthers c s s' := by
  constructor
  · intro hclaim
    obtain ⟨s, hs, hp⟩ := Lts.Reachable.of_exec step Lts.anyStep initial earlyFailure
      (fun s => decide (s.inserting = none) && decide
        ((s.getConnection ['k']).2.result (s.getConnection ['k']).1 = .failed)) (by decide)
    rw [Bool.and_eq_true, decide_eq_true_eq, decide_eq_true_eq] at hp
    exact hclaim s hs hp.1 ['k'] hp.2
  · intro hclaim
    obtain ⟨s, hs, hp⟩ := Lts.Reachable.of_exec step Lts.anyStep initial reconnection
      (fun s => decide (s.storedById 7 = some ⟨1, 7, ['k']⟩) &&
        (step s (.closeConnection ⟨0, 7, ['k']⟩)).any fun s' : ConnectionsRepository =>
          decide (s'.storedById 7 = none)) (by decide)
    rw [Bool.and_eq_true, decide_eq_true_eq] at hp
    obtain ⟨s', hs', hgone⟩ := (Option.any_eq_true _ _).mp hp.2
    have hkept := (hclaim s _ _ s' hs hs' rfl ⟨1, 7, ['k']⟩ (by decide)).1 7 hp.1
    rw [of_decide_eq_true hgone] at hkept
    cases hkept

end Stormancer.P2P.ConnectionsRepository
