import Stormancer.Lib.WeakSlots
import Stormancer.Packets.Dispatcher
import Stormancer.Scene.Routes

/-!
# The scene handles of a connection

The table of the scenes of a connection, the functions of `SceneDispatcher` on it, and the two
places that take a slot for a scene between peers: `Scene_Impl::openP2PConnection` on the side
that opens the connection and the service for `ID_CONNECT_TO_SCENE` on the other side.

A scene is known by the identity of its object. `alive` says which scenes were not destroyed:
the table holds weak pointers. A write outside of the table is left undefined.

Results:
1. `allocation_agrees_iff`: the handle that is allocated is routed to the scene of its slot, is
   not the handle of another live scene and is no system message id, and there is no handle when
   none is left, exactly when one of the first 115 slots is free or no slot is.
2. `scene116_gets_system_id`: with 115 live scenes the next one gets the handle 0.
-/

namespace Stormancer.Scene

open Packets WeakSlots

/-! ## The table -/

/-- The identity of a `Scene_Impl`. -/
abbrev SceneId := Nat

/-- The size that `RakNetConnection` gives to the table of its scope. -/
abbrev sceneCount : Nat := 150

/-- `std::vector<std::weak_ptr<Scene_Impl>>`, as it is made with a connection. -/
abbrev SceneHandles := WeakSlots.Table sceneCount SceneId

/-- `(uint8)MessageIDTypes::ID_SCENES`. -/
def idScenes : UInt8 := MessageIDTypes.idScenes.toByte

/-! ### `SceneDispatcher` -/

def getSceneIndex (sceneHandle : UInt8) : UInt8 := sceneHandle - idScenes

/-- `addScene`, for a scene whose host has the given handle. The table has all its slots, so
`resize` leaves it as it is. -/
def addScene (handles : SceneHandles) (scene : SceneId) (sceneHandle : UInt8) :
    Option SceneHandles :=
  if h : (getSceneIndex sceneHandle).toNat < sceneCount then
    some (store handles ⟨(getSceneIndex sceneHandle).toNat, h⟩ scene)
  else none

def removeScene (handles : SceneHandles) (sceneHandle : UInt8) : SceneHandles :=
  if h : (getSceneIndex sceneHandle).toNat < sceneCount then
    reset handles ⟨(getSceneIndex sceneHandle).toNat, h⟩
  else handles

/-- `handler_impl`: whether the message was processed, and the scene that it is posted to. -/
def handlerImpl (alive : SceneId → Bool) (handles : SceneHandles) (sceneHandle : UInt8) :
    Bool × Option SceneId :=
  if sceneHandle < idScenes then (false, none)
  else if h : sceneHandle.toNat - idScenes.toNat < sceneCount then
    (true, lock alive handles ⟨sceneHandle.toNat - idScenes.toNat, h⟩)
  else (false, none)

/-! ### The two allocators -/

/-- The loop over the slots: the first one that cannot be locked is taken for the scene. -/
def generateHandle (alive : SceneId → Bool) (handles : SceneHandles) (scene : SceneId) :
    Option (UInt8 × SceneHandles) :=
  (firstFree alive handles).map fun i => (UInt8.ofNat i.val + idScenes, store handles i scene)

structure RouteDto where
  handle : UInt16
  name : Str
  metadata : List (Str × Str)
deriving DecidableEq

structure P2PConnectToSceneMessage where
  sceneId : Str
  sceneHandle : UInt8
  routes : List RouteDto
  connectionMetadata : List (Str × Str)
  sceneMetadata : List (Str × Str)
deriving DecidableEq

/-- What the messages say about a scene. -/
structure SceneInfo where
  id : SceneId
  uri : Str
  localRoutes : List Route
  metadata : List (Str × Str)

/-- The message about a scene with the handle: its routes are those that accept peers. -/
def connectToSceneMessage (scene : SceneInfo) (handle : UInt8)
    (connectionMetadata : List (Str × Str)) : P2PConnectToSceneMessage where
  sceneId := scene.uri
  sceneHandle := handle
  routes := (scene.localRoutes.filter fun r => r.filter.includes .peer).map fun r =>
    ⟨r.handle, r.name, r.metadata⟩
  connectionMetadata := connectionMetadata
  sceneMetadata := scene.metadata

/-- The part of `Scene_Impl::openP2PConnection` that makes the request for the peer. -/
def openP2PConnection (alive : SceneId → Bool) (handles : SceneHandles) (scene : SceneInfo)
    (connectionMetadata : List (Str × Str)) :
    Except String (P2PConnectToSceneMessage × SceneHandles) :=
  match generateHandle alive handles scene.id with
  | none => .error "Failed to generate handle for scene."
  | some (handle, handles) =>
    .ok (connectToSceneMessage scene handle connectionMetadata, handles)

/-- The part of the service for `ID_CONNECT_TO_SCENE` that makes the response. -/
def connectToSceneService (alive : SceneId → Bool) (handles : SceneHandles)
    (scene : Option SceneInfo) (connectionMetadata : List (Str × Str)) :
    Except String (P2PConnectToSceneMessage × SceneHandles) :=
  match scene with
  | none => .error "Scene not found. Cannot connect to peer"
  | some scene =>
    match generateHandle alive handles scene.id with
    | none => .error "Failed to generate handle for scene."
    | some (handle, handles) =>
      .ok (connectToSceneMessage scene handle connectionMetadata, handles)

/-! ## Agreement with the dispatch -/

/-- The handle of the scene in a slot. -/
def slotHandle (i : Fin sceneCount) : UInt8 := UInt8.ofNat i.val + idScenes

/-- The ids below `ID_SCENES` belong to the transport and to the system messages. -/
def isSystemMessageId (id : UInt8) : Prop := id < idScenes

/-- What is promised about the handle that is allocated for the slot. -/
structure HandleAgrees (alive : SceneId → Bool) (handles : SceneHandles) (i : Fin sceneCount)
    (handle : UInt8) : Prop where
  routed : handlerImpl alive handles handle = (true, lock alive handles i)
  distinct : ∀ j, j ≠ i → (lock alive handles j).isSome → slotHandle j ≠ handle
  notSystem : ¬ isSystemMessageId handle

/-- The result of an allocation for the scene: the handle of a slot that was free and holds the
scene now, or a failure because no handle is left. -/
def AllocationAgrees (alive : SceneId → Bool) (handles : SceneHandles) (scene : SceneId) :
    Except String (P2PConnectToSceneMessage × SceneHandles) → Prop
  | .ok (message, handles') => ∃ i, lock alive handles i = none ∧
      handles' = store handles i scene ∧ HandleAgrees alive handles' i message.sceneHandle
  | .error _ => ∀ i, ¬ isSystemMessageId (slotHandle i) → (lock alive handles i).isSome

/-! ## Lemmas -/

namespace HandlesLemmas

theorem slot_lt (i : Fin sceneCount) : i.val < 150 := i.isLt

theorem slotHandle_toNat (i : Fin sceneCount) : (slotHandle i).toNat = (i.val + 141) % 256 := by
  have hlt := slot_lt i
  unfold slotHandle idScenes
  rw [UInt8.toNat_add, UInt8.toNat_ofNat_of_lt' (Nat.lt_trans hlt (by decide))]
  rfl

theorem slotHandle_injective {i j : Fin sceneCount} (h : slotHandle i = slotHandle j) : i = j := by
  have hi := slot_lt i
  have hj := slot_lt j
  have hnat := congrArg UInt8.toNat h
  rw [slotHandle_toNat, slotHandle_toNat] at hnat
  omega

/-- The handles from slot 115 on are truncated to system ids. -/
theorem isSystemMessageId_slotHandle (i : Fin sceneCount) :
    isSystemMessageId (slotHandle i) ↔ 115 ≤ i.val := by
  have hlt := slot_lt i
  unfold isSystemMessageId
  rw [UInt8.lt_iff_toNat_lt, slotHandle_toNat, show idScenes.toNat = 141 from rfl]
  omega

theorem handlerImpl_slotHandle {alive : SceneId → Bool} {handles : SceneHandles}
    {i : Fin sceneCount} (hi : i.val < 115) :
    handlerImpl alive handles (slotHandle i) = (true, lock alive handles i) := by
  have hsystem : ¬ slotHandle i < idScenes := by
    intro h
    have := (isSystemMessageId_slotHandle i).mp h
    omega
  have hindex : (slotHandle i).toNat - idScenes.toNat = i.val := by
    rw [slotHandle_toNat, show idScenes.toNat = 141 from rfl]
    omega
  unfold handlerImpl
  rw [if_neg hsystem]
  simp only [hindex, i.isLt, dite_true]

/-- What an allocation gives. -/
theorem openP2PConnection_cases (alive : SceneId → Bool) (handles : SceneHandles)
    (scene : SceneInfo) (connectionMetadata : List (Str × Str)) :
    (∃ i message, firstFree alive handles = some i ∧ message.sceneHandle = slotHandle i ∧
      openP2PConnection alive handles scene connectionMetadata =
        .ok (message, store handles i scene.id)) ∨
    (firstFree alive handles = none ∧
      openP2PConnection alive handles scene connectionMetadata =
        .error "Failed to generate handle for scene.") := by
  unfold openP2PConnection generateHandle
  cases hfree : firstFree alive handles with
  | none => exact .inr ⟨rfl, rfl⟩
  | some i => exact .inl ⟨i, _, rfl, rfl, rfl⟩

/-- The two allocators do the same for a scene that is found. -/
theorem connectToSceneService_eq (alive : SceneId → Bool) (handles : SceneHandles)
    (scene : SceneInfo) (connectionMetadata : List (Str × Str)) :
    connectToSceneService alive handles (some scene) connectionMetadata =
      openP2PConnection alive handles scene connectionMetadata := by
  unfold connectToSceneService openP2PConnection
  cases h : generateHandle alive handles scene.id <;> simp only [h]

end HandlesLemmas

open HandlesLemmas

/-! ## Main results -/

/-- Both allocators agree with the dispatch exactly when one of the first 115 slots is free, or
when there is no free slot at all. -/
theorem allocation_agrees_iff {alive : SceneId → Bool} {handles : SceneHandles}
    {scene : SceneInfo} (connectionMetadata : List (Str × Str)) :
    (AllocationAgrees alive handles scene.id
        (openP2PConnection alive handles scene connectionMetadata) ∧
      AllocationAgrees alive handles scene.id
        (connectToSceneService alive handles (some scene) connectionMetadata)) ↔
    (∃ i : Fin sceneCount, i.val < 115 ∧ lock alive handles i = none) ∨
      ∀ i, (lock alive handles i).isSome := by
  rw [connectToSceneService_eq, and_self]
  rcases openP2PConnection_cases alive handles scene connectionMetadata with
    ⟨i, message, hfree, hhandle, heq⟩ | ⟨hfree, heq⟩
  · rw [heq]
    obtain ⟨hi, hbefore⟩ := firstFree_eq_some.mp hfree
    constructor
    · rintro ⟨i', -, -, hagrees⟩
      have hsystem := hagrees.notSystem
      rw [hhandle, isSystemMessageId_slotHandle] at hsystem
      exact .inl ⟨i, by omega, hi⟩
    · intro hcond
      have hsmall : i.val < 115 := by
        rcases hcond with ⟨j, hj, hjfree⟩ | hall
        · by_contra hlarge
          have hbefore := hbefore j (by omega)
          rw [hjfree] at hbefore
          cases hbefore
        · have hsome := hall i
          rw [hi] at hsome
          cases hsome
      refine ⟨i, hi, rfl, ?_, ?_, ?_⟩
      · rw [hhandle]
        exact handlerImpl_slotHandle hsmall
      · rintro j hj - hsame
        rw [hhandle] at hsame
        exact hj (slotHandle_injective hsame)
      · rw [hhandle, isSystemMessageId_slotHandle]
        omega
  · rw [heq]
    have hall := firstFree_eq_none.mp hfree
    exact ⟨fun _ => .inr hall, fun _ i _ => hall i⟩

/-- A table whose first 115 slots hold the scenes 0 to 114. -/
def handlesOf115 : SceneHandles := fun i => if i.val < 115 then some i.val else none

/-- With 115 live scenes the next scene gets the handle 0, which the dispatch does not route. -/
theorem scene116_gets_system_id :
    ¬ AllocationAgrees (fun _ => true) handlesOf115 115
      (openP2PConnection (fun _ => true) handlesOf115 ⟨115, [], [], []⟩ []) := by
  have hfree : firstFree (fun _ => true) handlesOf115 = some (115 : Fin sceneCount) := by
    rw [firstFree_eq_some]
    decide +kernel
  unfold openP2PConnection generateHandle
  rw [hfree]
  rintro ⟨i, -, -, hagrees⟩
  exact hagrees.notSystem (show (0 : UInt8) < 141 by decide)

end Stormancer.Scene
