import Stormancer.Scene.Handles

/-!
# Accesses to the scene table

The functions of `SceneDispatcher` on a table of any size. The table is a `std::vector`: it has a
size and a capacity, and an access outside of its size is undefined. Lookups look at the size first.
`addScene` enlarges the table before it writes, but compares the low byte of the capacity, and
never asks for more than 150 entries.

Results:
1. `accesses_inside_iff`: the functions stay inside the table exactly when the handle is one that
   `addScene` makes room for.
2. `getScene_addScene`: then the scene is found under its handle.
3. `fits_ofTable_iff`, `addScene_ofTable`: on the table that a connection has these are the handles
   below 35 and from 141 on, and `addScene` is the one on that table.
4. `handle35_outside`: a host that gives the handle 35.
-/

namespace Stormancer.Scene

open Packets WeakSlots

/-- `std::vector<std::weak_ptr<Scene_Impl>>`. -/
structure SceneVector where
  slots : List (Option SceneId)
  capacity : Nat
  size_le : slots.length ≤ capacity

namespace SceneVector

/-! ## Definitions -/

/-- `std::vector::resize`. `spare` is what an implementation allocates beyond what is needed. -/
def resize (spare : Nat → Nat) (v : SceneVector) (n : Nat) : SceneVector where
  slots := v.slots.take n ++ List.replicate (n - v.slots.length) none
  capacity := if n ≤ v.capacity then v.capacity else n + spare n
  size_le := by
    rw [List.length_append, List.length_take, List.length_replicate]
    have hle := v.size_le
    split <;> omega

/-- `operator[]`, where there is such an element. -/
def read (v : SceneVector) (i : Nat) : Option (Option SceneId) := v.slots[i]?

/-- An assignment to an element, where there is such an element. -/
def write (v : SceneVector) (i : Nat) (scene : Option SceneId) : Option SceneVector :=
  if i < v.slots.length then
    some ⟨v.slots.set i scene, v.capacity, by rw [List.length_set]; exact v.size_le⟩
  else none

/-- The size that `SceneDispatcher::resize` asks for. -/
def newSize (index : UInt8) : Nat :=
  let newSize := (index.toNat + 1) * 2
  let newSize := if newSize < 8 then 8 else newSize
  if newSize > 150 then 150 else newSize

/-- `SceneDispatcher::resize`. -/
def makeRoom (spare : Nat → Nat) (v : SceneVector) (index : UInt8) : SceneVector :=
  if v.capacity % 256 < index.toNat + 1 then v.resize spare (newSize index) else v

/-- `addScene`, for a scene whose host has the given handle. -/
def addScene (spare : Nat → Nat) (v : SceneVector) (scene : SceneId) (sceneHandle : UInt8) :
    Option SceneVector :=
  let index := getSceneIndex sceneHandle
  (v.makeRoom spare index).write index.toNat (some scene)

def removeScene (v : SceneVector) (sceneHandle : UInt8) : Option SceneVector :=
  let index := getSceneIndex sceneHandle
  if index.toNat < v.slots.length then v.write index.toNat none else some v

def getScene (alive : SceneId → Bool) (v : SceneVector) (sceneHandle : UInt8) :
    Option (Option SceneId) :=
  let index := getSceneIndex sceneHandle
  if index.toNat < v.slots.length then (v.read index.toNat).map (·.filter alive) else some none

/-- `handler_impl`. -/
def handlerImpl (alive : SceneId → Bool) (v : SceneVector) (sceneHandle : UInt8) :
    Option (Bool × Option SceneId) :=
  if sceneHandle < idScenes then some (false, none)
  else
    let sceneIndex := sceneHandle.toNat - idScenes.toNat
    if sceneIndex < v.slots.length then
      (v.read sceneIndex).map fun scene => (true, scene.filter alive)
    else some (false, none)

/-! ## The property -/

/-- The four functions access elements of the table only. -/
structure AccessesInside (spare : Nat → Nat) (alive : SceneId → Bool) (v : SceneVector)
    (scene : SceneId) (sceneHandle : UInt8) : Prop where
  addScene : (v.addScene spare scene sceneHandle).isSome = true
  removeScene : (v.removeScene sceneHandle).isSome = true
  getScene : (v.getScene alive sceneHandle).isSome = true
  handlerImpl : (v.handlerImpl alive sceneHandle).isSome = true

/-- Where the capacity, as a byte, does not exceed the index, the index is one of the 150; else
it is inside the table already. -/
def Fits (v : SceneVector) (sceneHandle : UInt8) : Prop :=
  let index := (getSceneIndex sceneHandle).toNat
  if v.capacity % 256 ≤ index then index < 150 else index < v.slots.length

instance (v : SceneVector) (sceneHandle : UInt8) : Decidable (v.Fits sceneHandle) := by
  unfold Fits
  infer_instance

/-! ## Helpers -/

namespace TableBoundsLemmas

variable {v : SceneVector} {spare : Nat → Nat} {alive : SceneId → Bool} {scene : SceneId}
  {sceneHandle index : UInt8} {i : Nat}

theorem isSome_read : (v.read i).isSome = true ↔ i < v.slots.length := by
  unfold read
  rw [isSome_getElem?]

theorem isSome_write {x : Option SceneId} : (v.write i x).isSome = true ↔ i < v.slots.length := by
  unfold write
  split
  · next hlt => exact ⟨fun _ => hlt, fun _ => rfl⟩
  · next hlt => exact ⟨fun h => absurd h Bool.false_ne_true, fun h => absurd h hlt⟩

theorem slots_write (v : SceneVector) (i : Nat) (x : Option SceneId) :
    (v.write i x).map (·.slots) =
      if i < v.slots.length then some (v.slots.set i x) else none := by
  unfold write
  split <;> rfl

theorem length_resize (v : SceneVector) (n : Nat) : (v.resize spare n).slots.length = n := by
  unfold resize
  rw [List.length_append, List.length_take, List.length_replicate]
  omega

theorem lt_newSize_iff (index : UInt8) : index.toNat < newSize index ↔ index.toNat < 150 := by
  unfold newSize
  grind

/-- Where the table has room after it was enlarged. -/
theorem lt_makeRoom_iff (v : SceneVector) (index : UInt8) :
    index.toNat < (v.makeRoom spare index).slots.length ↔
      if v.capacity % 256 ≤ index.toNat then index.toNat < 150
      else index.toNat < v.slots.length := by
  unfold makeRoom
  by_cases hle : v.capacity % 256 ≤ index.toNat
  · rw [if_pos (Nat.lt_succ_of_le hle), if_pos hle, length_resize]
    exact lt_newSize_iff index
  · rw [if_neg (fun hlt => hle (Nat.le_of_lt_succ hlt)), if_neg hle]

theorem isSome_addScene : (v.addScene spare scene sceneHandle).isSome = true ↔
    v.Fits sceneHandle := by
  unfold SceneVector.addScene Fits
  dsimp only
  rw [isSome_write, lt_makeRoom_iff]

theorem isSome_removeScene (v : SceneVector) (sceneHandle : UInt8) :
    (v.removeScene sceneHandle).isSome = true := by
  unfold SceneVector.removeScene
  dsimp only
  split
  · next hlt => exact isSome_write.mpr hlt
  · rfl

theorem isSome_getScene (alive : SceneId → Bool) (v : SceneVector) (sceneHandle : UInt8) :
    (v.getScene alive sceneHandle).isSome = true := by
  unfold SceneVector.getScene
  dsimp only
  split
  · next hlt =>
    rw [Option.isSome_map]
    exact isSome_read.mpr hlt
  · rfl

theorem isSome_handlerImpl (alive : SceneId → Bool) (v : SceneVector) (sceneHandle : UInt8) :
    (v.handlerImpl alive sceneHandle).isSome = true := by
  unfold SceneVector.handlerImpl
  dsimp only
  split
  · rfl
  · split
    · next hlt =>
      rw [Option.isSome_map]
      exact isSome_read.mpr hlt
    · rfl

end TableBoundsLemmas

open TableBoundsLemmas

/-! ## Main results -/

/-- The lookups are guarded, so it is `addScene` that decides. -/
theorem accesses_inside_iff (spare : Nat → Nat) (alive : SceneId → Bool) (v : SceneVector)
    (scene : SceneId) (sceneHandle : UInt8) :
    v.AccessesInside spare alive scene sceneHandle ↔ v.Fits sceneHandle := by
  constructor
  · exact fun h => isSome_addScene.mp h.addScene
  · intro hfits
    exact ⟨isSome_addScene.mpr hfits, isSome_removeScene v sceneHandle,
      isSome_getScene alive v sceneHandle, isSome_handlerImpl alive v sceneHandle⟩

/-- A scene that was added is found under its handle. -/
theorem getScene_addScene {spare : Nat → Nat} {alive : SceneId → Bool} {v v' : SceneVector}
    {scene : SceneId} {sceneHandle : UInt8} (halive : alive scene = true)
    (h : v.addScene spare scene sceneHandle = some v') :
    v'.getScene alive sceneHandle = some (some scene) := by
  unfold addScene write at h
  dsimp only at h
  split at h
  · next hlt =>
    cases h
    unfold getScene read
    dsimp only
    rw [List.length_set, if_pos hlt, List.getElem?_set_self hlt, Option.map_some,
      Option.filter_some_pos halive]
  · cases h

/-! ## The table of a connection -/

/-- The table of a connection as a vector. -/
def ofTable (handles : SceneHandles) : SceneVector :=
  ⟨List.ofFn handles, sceneCount, by rw [List.length_ofFn]⟩

theorem length_ofTable (handles : SceneHandles) : (ofTable handles).slots.length = sceneCount :=
  List.length_ofFn

theorem fits_ofTable_iff (handles : SceneHandles) (sceneHandle : UInt8) :
    (ofTable handles).Fits sceneHandle ↔ sceneHandle < 35 ∨ 141 ≤ sceneHandle := by
  have hfits : (ofTable handles).Fits sceneHandle ↔ (getSceneIndex sceneHandle).toNat < 150 := by
    unfold Fits
    dsimp only
    rw [length_ofTable]
    split <;> exact Iff.rfl
  have hindex : (getSceneIndex sceneHandle).toNat = (256 - 141 + sceneHandle.toNat) % 256 :=
    UInt8.toNat_sub sceneHandle idScenes
  have hlt := sceneHandle.toNat_lt
  rw [hfits, hindex, UInt8.lt_iff_toNat_lt, UInt8.le_iff_toNat_le]
  change _ ↔ sceneHandle.toNat < 35 ∨ 141 ≤ sceneHandle.toNat
  omega

/-- The table of a connection has its 150 slots already. -/
theorem makeRoom_ofTable (spare : Nat → Nat) (handles : SceneHandles) (index : UInt8) :
    ((ofTable handles).makeRoom spare index).slots = List.ofFn handles := by
  unfold makeRoom
  split
  · next hlt =>
    have hindex : 150 ≤ index.toNat := Nat.le_of_lt_succ hlt
    have hsize : newSize index = sceneCount := by
      unfold newSize sceneCount
      grind
    rw [hsize]
    change (List.ofFn handles).take sceneCount ++
      List.replicate (sceneCount - (List.ofFn handles).length) none = List.ofFn handles
    rw [List.length_ofFn, Nat.sub_self, List.replicate_zero, List.append_nil,
      List.take_of_length_le (Nat.le_of_eq List.length_ofFn)]
  · rfl

theorem addScene_ofTable (spare : Nat → Nat) (handles : SceneHandles) (scene : SceneId)
    (sceneHandle : UInt8) :
    ((ofTable handles).addScene spare scene sceneHandle).map (·.slots) =
      (Scene.addScene handles scene sceneHandle).map List.ofFn := by
  unfold addScene Scene.addScene
  dsimp only
  rw [slots_write, makeRoom_ofTable, List.length_ofFn]
  split
  · next hlt =>
    rw [Option.map_some]
    refine congrArg some (List.ext_getElem? fun i => ?_)
    rw [List.getElem?_set, List.length_ofFn, List.getElem?_ofFn, List.getElem?_ofFn]
    unfold store
    split
    · next heq =>
      subst heq
      rw [dif_pos hlt, Function.update_self]
    · next hne =>
      split
      · next hi =>
        rw [Function.update_of_ne fun heq => hne (congrArg Fin.val heq).symm]
      · rfl
  · rfl

/-- A host that gives the handle 35: the scene is written behind the last slot. -/
theorem handle35_outside :
    ¬ ∀ (spare : Nat → Nat) (alive : SceneId → Bool) (v : SceneVector) (scene : SceneId)
      (sceneHandle : UInt8), v.AccessesInside spare alive scene sceneHandle := by
  intro hall
  have hadd := (hall (fun _ => 0) (fun _ => true) (ofTable WeakSlots.empty) 0 35).addScene
  rw [isSome_addScene, fits_ofTable_iff] at hadd
  exact absurd hadd (by decide)

end SceneVector

end Stormancer.Scene
