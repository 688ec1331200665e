import Stormancer.Lib.Run
import Stormancer.Scene.Handles

/-!
# The slots of the scene tables

The operations that write the scene tables of a client, in any order: the `addScene` of a scene
that the server accepted, the allocation of a handle on both sides of a connection between
peers, and `removeScene`. The scope of a `RelayConnection` is a child of the scope of the
connection to the server, so both resolve the same table. A connection attempt between peers
starts with its allocation and ends when its request succeeds or fails; neither writes a table.

Results:
1. `slots_kept`: in every run whose steps meet `Meets`, no step puts another scene into a slot
   that holds a live scene, and an attempt that fails leaves its slot as free as it was.
2. `failed_attempt_keeps_slot`: the attempts that `Meets` excludes keep their slots.
3. `server_scene_steals_slot`: a scene of the server takes the slot of a relayed peer's scene.
-/

namespace Stormancer.Scene

open Packets WeakSlots

/-! ## The system -/

inductive Connection
  | rakNet (id : Nat)
  | relay (server peer : Nat)
deriving DecidableEq

/-- Where `dependencyResolver().resolve<std::vector<std::weak_ptr<Scene_Impl>>>()` finds the
table: each RakNet connection registers one in its scope. -/
def Connection.table : Connection → Nat
  | .rakNet id => id
  | .relay server _ => server

/-- The two sides that allocate a handle. -/
inductive Side
  | initiator
  | acceptor
deriving DecidableEq

/-- A connection attempt between peers that got a handle. -/
structure Attempt where
  table : Nat
  handle : UInt8
  scene : SceneId
  pending : Bool
  /-- Whether its slot was written again. -/
  rewritten : Bool
deriving DecidableEq

def Attempt.slot (a : Attempt) : Nat := (getSceneIndex a.handle).toNat

structure SceneSlots where
  tables : Nat → SceneHandles
  destroyed : List SceneId
  attempts : List Attempt

namespace SceneSlots

def initial : SceneSlots := ⟨fun _ => WeakSlots.empty, [], []⟩

def alive (s : SceneSlots) (scene : SceneId) : Bool := !s.destroyed.contains scene

/-- The live scene in a slot. -/
def held (s : SceneSlots) (table : Nat) (i : Fin sceneCount) : Option SceneId :=
  lock s.alive (s.tables table) i

def markWritten (s : SceneSlots) (table slot : Nat) : List Attempt :=
  s.attempts.map fun a =>
    if a.table = table ∧ a.slot = slot then { a with rewritten := true } else a

/-- A table after a write to the slot of the handle. -/
def written (s : SceneSlots) (table : Nat) (handle : UInt8) (handles : SceneHandles) : SceneSlots :=
  { s with
    tables := Function.update s.tables table handles
    attempts := s.markWritten table (getSceneIndex handle).toNat }

/-- The allocation of a handle on one of the sides. -/
def allocate (s : SceneSlots) (side : Side) (c : Connection) (scene : SceneInfo)
    (metadata : List (Str × Str)) : Except String (P2PConnectToSceneMessage × SceneHandles) :=
  match side with
  | .initiator => openP2PConnection s.alive (s.tables c.table) scene metadata
  | .acceptor => connectToSceneService s.alive (s.tables c.table) (some scene) metadata

/-- An attempt that is over. -/
def finished (s : SceneSlots) (i : Nat) : List Attempt :=
  s.attempts.modify i fun a => { a with pending := false }

inductive Action
  | addScene (c : Connection) (scene : SceneId) (handle : UInt8)
  | allocate (side : Side) (c : Connection) (scene : SceneInfo) (metadata : List (Str × Str))
  | succeed (attempt : Nat)
  | fail (attempt : Nat)
  | removeScene (c : Connection) (handle : UInt8)
  | peerDisconnected (c : Connection)
  | destroy (scene : SceneId)

def step (s : SceneSlots) : Action → Option SceneSlots
  | .addScene c scene handle =>
    if s.alive scene then
      (addScene (s.tables c.table) scene handle).map (s.written c.table handle)
    else none
  | .allocate side c scene metadata =>
    if s.alive scene.id then
      match s.allocate side c scene metadata with
      | .error _ => some s
      | .ok (message, handles) =>
        let s' := s.written c.table message.sceneHandle handles
        some { s' with
          attempts := s'.attempts ++ [⟨c.table, message.sceneHandle, scene.id, true, false⟩] }
    else none
  | .succeed i | .fail i =>
    if s.attempts[i]?.any (·.pending) then some { s with attempts := s.finished i } else none
  | .removeScene c handle =>
    some (s.written c.table handle (removeScene (s.tables c.table) handle))
  | .peerDisconnected _ => some s
  | .destroy scene => some { s with destroyed := scene :: s.destroyed }

/-! ## The property -/

/-- No slot with a live scene gets another one. -/
def NotStolen (s s' : SceneSlots) : Prop :=
  ∀ table i x y, s.held table i = some x → s'.held table i = some y → y = x

/-- When the action is the failure of an attempt whose slot was not written since, the slot is
free again, as it was before the attempt. -/
def FailureRestores (s : SceneSlots) (a : Action) (s' : SceneSlots) : Prop :=
  ∀ n attempt, a = .fail n → s.attempts[n]? = some attempt → attempt.rewritten = false →
    ∀ i : Fin sceneCount, i.val = attempt.slot → s'.held attempt.table i = none

/-- The condition on a step: the server assigns a handle whose slot is free or holds the same
scene, and an attempt fails only after its scene was destroyed or its slot was written again. -/
def Meets (s : SceneSlots) : Action → Prop
  | .addScene c scene handle => ∀ i : Fin sceneCount, i.val = (getSceneIndex handle).toNat →
      ∀ x ∈ s.held c.table i, x = scene
  | .fail n => ∀ attempt ∈ s.attempts[n]?, attempt.rewritten = true ∨ s.alive attempt.scene = false
  | _ => True

instance (s : SceneSlots) : (a : Action) → Decidable (Meets s a)
  | .addScene _ _ _ | .fail _ => by unfold Meets; infer_instance
  | .allocate _ _ _ _ | .succeed _ | .removeScene _ _ | .peerDisconnected _ | .destroy _ =>
    inferInstanceAs (Decidable True)

/-- The slot of an attempt holds its scene until it is written again. -/
def Inv (s : SceneSlots) : Prop :=
  ∀ a ∈ s.attempts, a.rewritten = false →
    ∃ i : Fin sceneCount, i.val = a.slot ∧ s.tables a.table i = some a.scene

/-! ## Lemmas -/

namespace SlotsLemmas

/-! ### The writes -/

theorem addScene_eq_some {handles handles' : SceneHandles} {scene : SceneId} {handle : UInt8}
    (h : addScene handles scene handle = some handles') :
    ∃ i : Fin sceneCount, i.val = (getSceneIndex handle).toNat ∧
      handles' = store handles i scene := by
  unfold addScene at h
  split at h
  · next hlt =>
    cases h
    exact ⟨⟨_, hlt⟩, rfl, rfl⟩
  · cases h

theorem removeScene_cases (handles : SceneHandles) (handle : UInt8) :
    (∃ i : Fin sceneCount, i.val = (getSceneIndex handle).toNat ∧
      removeScene handles handle = reset handles i) ∨ removeScene handles handle = handles := by
  unfold removeScene
  split
  · next hlt => exact .inl ⟨⟨_, hlt⟩, rfl, rfl⟩
  · exact .inr rfl

theorem getSceneIndex_slotHandle (i : Fin sceneCount) :
    (getSceneIndex (slotHandle i)).toNat = i.val := by
  have hlt := HandlesLemmas.slot_lt i
  unfold getSceneIndex slotHandle
  rw [UInt8.add_sub_cancel, UInt8.toNat_ofNat_of_lt' (Nat.lt_trans hlt (by decide))]

/-- Both sides take the first free slot. -/
theorem allocate_eq_ok {s : SceneSlots} {side : Side} {c : Connection} {scene : SceneInfo}
    {metadata : List (Str × Str)} {message : P2PConnectToSceneMessage} {handles : SceneHandles}
    (h : s.allocate side c scene metadata = .ok (message, handles)) :
    ∃ i : Fin sceneCount, i.val = (getSceneIndex message.sceneHandle).toNat ∧
      s.held c.table i = none ∧ handles = store (s.tables c.table) i scene.id := by
  have hopen : openP2PConnection s.alive (s.tables c.table) scene metadata =
      .ok (message, handles) := by
    cases side with
    | initiator => exact h
    | acceptor => rwa [← HandlesLemmas.connectToSceneService_eq]
  rcases HandlesLemmas.openP2PConnection_cases s.alive (s.tables c.table) scene metadata with
    ⟨i, message', hfree, hhandle, heq⟩ | ⟨-, heq⟩
  · rw [hopen] at heq
    cases heq
    refine ⟨i, ?_, (firstFree_eq_some.mp hfree).1, rfl⟩
    rw [hhandle, getSceneIndex_slotHandle]
  · rw [hopen] at heq
    cases heq

theorem held_written (s : SceneSlots) (table : Nat) (handle : UInt8) (handles : SceneHandles)
    (table' : Nat) (j : Fin sceneCount) :
    (s.written table handle handles).held table' j =
      if table' = table then lock s.alive handles j else s.held table' j := by
  unfold held written
  dsimp only
  split
  · next heq =>
    rw [heq, Function.update_self]
    rfl
  · next hne =>
    rw [Function.update_of_ne hne]
    rfl

/-- A store changes what is held in its slot only. -/
theorem held_store {s : SceneSlots} (handle : UInt8) {table table' : Nat} {i j : Fin sceneCount}
    {scene : SceneId} (halive : s.alive scene = true) :
    (s.written table handle (store (s.tables table) i scene)).held table' j =
      if table' = table ∧ j = i then some scene else s.held table' j := by
  rw [held_written, lock_store halive]
  by_cases htable : table' = table
  · subst htable
    simp [held]
  · simp [htable]

theorem held_reset {s : SceneSlots} {table table' : Nat} {handle : UInt8} {i j : Fin sceneCount} :
    (s.written table handle (reset (s.tables table) i)).held table' j =
      if table' = table ∧ j = i then none else s.held table' j := by
  rw [held_written, lock_reset]
  by_cases htable : table' = table
  · subst htable
    simp [held]
  · simp [htable]

theorem held_of_destroy {s : SceneSlots} {scene : SceneId} {table : Nat} {i : Fin sceneCount}
    {x : SceneId} (h : { s with destroyed := scene :: s.destroyed }.held table i = some x) :
    s.held table i = some x := by
  refine lock_of_destroy ?_ h
  intro y hy
  unfold alive at hy ⊢
  rw [List.contains_cons, Bool.not_or, Bool.and_eq_true] at hy
  exact hy.2

/-! ### The invariant -/

/-- An attempt whose slot is written is marked, the others keep their slots. -/
theorem inv_written {s : SceneSlots} (hi : Inv s) (table : Nat) {handle : UInt8}
    {i : Fin sceneCount} (hslot : i.val = (getSceneIndex handle).toNat) (entry : Option SceneId) :
    Inv (s.written table handle (Function.update (s.tables table) i entry)) := by
  intro a ha hnot
  obtain ⟨a₀, ha₀, rfl⟩ := List.mem_map.mp ha
  split at hnot
  · cases hnot
  · next hother =>
    rw [if_neg hother]
    obtain ⟨j, hj, hentry⟩ := hi a₀ ha₀ hnot
    refine ⟨j, hj, ?_⟩
    unfold written
    dsimp only
    by_cases htable : a₀.table = table
    · have hne : j ≠ i := by
        rintro rfl
        exact hother ⟨htable, hj.symm.trans hslot⟩
      rw [htable, Function.update_self, Function.update_of_ne hne, ← htable]
      exact hentry
    · rw [Function.update_of_ne htable]
      exact hentry

/-- The end of an attempt changes neither its slot nor its scene. -/
theorem mem_finished {s : SceneSlots} {n : Nat} {a : Attempt} (h : a ∈ s.finished n) :
    ∃ a₀ ∈ s.attempts, a.table = a₀.table ∧ a.slot = a₀.slot ∧ a.scene = a₀.scene ∧
      a.rewritten = a₀.rewritten := by
  obtain ⟨k, hk, rfl⟩ := List.mem_iff_getElem.mp h
  have hk' : k < s.attempts.length := by simpa [finished] using hk
  refine ⟨s.attempts[k], List.getElem_mem hk', ?_⟩
  simp only [finished, List.getElem_modify]
  split <;> exact ⟨rfl, rfl, rfl, rfl⟩

theorem inv_finished {s : SceneSlots} (hi : Inv s) (n : Nat) :
    Inv { s with attempts := s.finished n } := by
  intro a ha hnot
  obtain ⟨a₀, ha₀, htable, hslot, hscene, hrewritten⟩ := mem_finished ha
  obtain ⟨i, hi', hentry⟩ := hi a₀ ha₀ (hrewritten.symm.trans hnot)
  refine ⟨i, hi'.trans hslot.symm, ?_⟩
  rw [htable, hscene]
  exact hentry

theorem inv_step (s : SceneSlots) (a : Action) (s' : SceneSlots) (hi : Inv s)
    (h : step s a = some s') : Inv s' := by
  cases a with
  | addScene c scene handle =>
    simp only [step] at h
    split at h
    · obtain ⟨handles, hadd, rfl⟩ := Option.map_eq_some_iff.mp h
      obtain ⟨i, hslot, rfl⟩ := addScene_eq_some hadd
      exact inv_written hi c.table hslot (some scene)
    · cases h
  | allocate side c scene metadata =>
    simp only [step] at h
    split at h
    · split at h
      · cases h
        exact hi
      · next message handles hok =>
        cases h
        obtain ⟨i, hslot, -, rfl⟩ := allocate_eq_ok hok
        intro a ha hnot
        rcases List.mem_append.mp ha with ha | ha
        · exact inv_written hi c.table hslot (some scene.id) a ha hnot
        · rw [List.mem_singleton.mp ha]
          refine ⟨i, hslot, ?_⟩
          unfold written store
          dsimp only
          rw [Function.update_self, Function.update_self]
    · cases h
  | succeed n | fail n =>
    simp only [step] at h
    split at h
    · cases h
      exact inv_finished hi n
    · cases h
  | removeScene c handle =>
    cases h
    rcases removeScene_cases (s.tables c.table) handle with ⟨i, hslot, heq⟩ | heq
    · rw [heq]
      exact inv_written hi c.table hslot none
    · rw [heq]
      intro a ha hnot
      obtain ⟨a₀, ha₀, rfl⟩ := List.mem_map.mp ha
      split at hnot
      · cases hnot
      · next hother =>
        rw [if_neg hother]
        obtain ⟨j, hj, hentry⟩ := hi a₀ ha₀ hnot
        refine ⟨j, hj, ?_⟩
        unfold written
        dsimp only
        rw [Function.update_eq_self]
        exact hentry
  | peerDisconnected c =>
    cases h
    exact hi
  | destroy scene =>
    cases h
    exact hi

theorem inv_initial : Inv initial := fun _ ha => nomatch ha

/-! ### The steps -/

theorem notStolen_step {s s' : SceneSlots} {a : Action} (hg : Meets s a)
    (h : step s a = some s') : NotStolen s s' := by
  intro table i x y hx hy
  have same : s'.held table i = s.held table i → y = x := by
    intro heq
    rw [heq, hx] at hy
    exact (Option.some.inj hy).symm
  cases a with
  | addScene c scene handle =>
    simp only [step] at h
    split at h
    · next halive =>
      obtain ⟨handles, hadd, rfl⟩ := Option.map_eq_some_iff.mp h
      obtain ⟨j, hslot, rfl⟩ := addScene_eq_some hadd
      by_cases hhere : table = c.table ∧ i = j
      · obtain ⟨rfl, rfl⟩ := hhere
        rw [held_store handle halive, if_pos ⟨rfl, rfl⟩] at hy
        cases hy
        exact (hg i hslot x hx).symm
      · exact same (by rw [held_store handle halive, if_neg hhere])
    · cases h
  | allocate side c scene metadata =>
    simp only [step] at h
    split at h
    · next halive =>
      split at h
      · cases h
        exact same rfl
      · next message handles hok =>
        cases h
        obtain ⟨j, hslot, hfree, rfl⟩ := allocate_eq_ok hok
        by_cases hhere : table = c.table ∧ i = j
        · obtain ⟨rfl, rfl⟩ := hhere
          rw [hfree] at hx
          cases hx
        · exact same ((held_store message.sceneHandle halive).trans (if_neg hhere))
    · cases h
  | succeed n | fail n =>
    simp only [step] at h
    split at h
    · cases h
      exact same rfl
    · cases h
  | removeScene c handle =>
    cases h
    rcases removeScene_cases (s.tables c.table) handle with ⟨j, -, heq⟩ | heq
    · rw [heq] at hy same
      by_cases hhere : table = c.table ∧ i = j
      · rw [held_reset, if_pos hhere] at hy
        cases hy
      · exact same (by rw [held_reset, if_neg hhere])
    · rw [heq] at same
      refine same ?_
      rw [held_written]
      split
      · next htable =>
        rw [htable]
        rfl
      · rfl
  | peerDisconnected c =>
    cases h
    exact same rfl
  | destroy scene =>
    cases h
    have hold := held_of_destroy hy
    rw [hx] at hold
    exact (Option.some.inj hold).symm

/-- An attempt whose slot was not written since leaves it to its scene, alive or not. -/
theorem held_of_inv {s : SceneSlots} (hi : Inv s) {a : Attempt} (ha : a ∈ s.attempts)
    (hnot : a.rewritten = false) {i : Fin sceneCount} (hslot : i.val = a.slot) :
    s.held a.table i = if s.alive a.scene then some a.scene else none := by
  obtain ⟨j, hj, hentry⟩ := hi a ha hnot
  have hij : i = j := Fin.ext (hslot.trans hj.symm)
  subst hij
  unfold held lock
  rw [hentry]
  cases halive : s.alive a.scene <;> simp [halive]

end SlotsLemmas

open SlotsLemmas

/-! ## Main results -/

/-- In every run whose steps meet the condition: no step gives the slot of a live scene to
another scene, and an attempt that fails leaves its slot free. -/
theorem slots_kept {s s' : SceneSlots} {a : Action} (h : Lts.Reachable step Meets initial s)
    (hg : Meets s a) (hs : step s a = some s') : NotStolen s s' ∧ FailureRestores s a s' := by
  refine ⟨notStolen_step hg hs, ?_⟩
  have hi := h.invariant inv_initial fun s a s' hi _ => inv_step s a s' hi
  rintro n attempt rfl hget hnot i hslot
  have hdead : s.alive attempt.scene = false := by
    rcases hg attempt hget with hyes | hdead
    · rw [hnot] at hyes
      cases hyes
    · exact hdead
  have hheld := held_of_inv hi (List.mem_of_getElem? hget) hnot hslot
  rw [hdead] at hheld
  simp only [step] at hs
  split at hs
  · cases hs
    exact hheld
  · cases hs

/-- The attempts that the condition excludes: the request fails, and the slot still holds the
scene. -/
theorem failed_attempt_keeps_slot {s s' : SceneSlots} {n : Nat} {attempt : Attempt}
    (h : Lts.Reachable step Lts.anyStep initial s) (hs : step s (.fail n) = some s')
    (hget : s.attempts[n]? = some attempt) (hnot : attempt.rewritten = false)
    (halive : s.alive attempt.scene = true) {i : Fin sceneCount} (hslot : i.val = attempt.slot) :
    s'.held attempt.table i = some attempt.scene := by
  have hi := h.invariant inv_initial fun s a s' hi _ => inv_step s a s' hi
  have hheld := held_of_inv hi (List.mem_of_getElem? hget) hnot hslot
  rw [halive] at hheld
  simp only [step] at hs
  split at hs
  · cases hs
    exact hheld
  · cases hs

/-- A scene connects to the server, then to the peer 7 that is reached through the server. -/
def relayedPeer : List Action :=
  [.addScene (.rakNet 0) 1 141, .allocate .initiator (.relay 0 7) ⟨1, [], [], []⟩ []]

theorem slots_kept_relayed : ∃ s s', Lts.Reachable step Meets initial s ∧
    step s (.addScene (.rakNet 0) 2 143) = some s' ∧ NotStolen s s' := by
  obtain ⟨s, hs, hp⟩ := Lts.Reachable.of_exec step Meets initial relayedPeer
    (fun s => decide (Meets s (.addScene (.rakNet 0) 2 143)) &&
      (step s (.addScene (.rakNet 0) 2 143)).isSome) (by decide +kernel)
  rw [Bool.and_eq_true] at hp
  obtain ⟨s', hs'⟩ := Option.isSome_iff_exists.mp hp.2
  exact ⟨s, s', hs, hs', (slots_kept hs (of_decide_eq_true hp.1) hs').1⟩

/-- The server does not know the slot that the peers took, and assigns its handle to the next
scene: the live scene 1 loses the slot. -/
theorem server_scene_steals_slot : ¬ ∀ s a s', Lts.Reachable step Lts.anyStep initial s →
    step s a = some s' → NotStolen s s' ∧ FailureRestores s a s' := by
  intro hclaim
  obtain ⟨s, hs, hp⟩ := Lts.Reachable.of_exec step Lts.anyStep initial relayedPeer
    (fun s => decide (s.held 0 1 = some 1) &&
      (step s (.addScene (.rakNet 0) 2 142)).any fun s' : SceneSlots =>
        decide (s'.held 0 1 = some 2))
    (by decide +kernel)
  rw [Bool.and_eq_true] at hp
  obtain ⟨s', hs', hheld'⟩ := (Option.any_eq_true _ _).mp hp.2
  have hstolen := (hclaim s _ s' hs hs').1 0 1 1 2 (of_decide_eq_true hp.1)
    (of_decide_eq_true hheld')
  cases hstolen

end SceneSlots
end Stormancer.Scene
