import Stormancer.Scene.Handles
import Stormancer.Scene.Sending
import Stormancer.Streams.IByteStream

/-!
# Messages between the scenes of peers

Any number of clients with a connection between each two of them, and their scenes: how a scene
connects to the one of a peer (`openP2PConnection`, the service for `ID_CONNECT_TO_SCENE`,
`peerConnected`), what it sends to its peers, and what the other side does with the bytes, from the
packet dispatcher over `SceneDispatcher` to the handlers of the route.

Everything that has been sent, posted or continued is a task until it runs, and the tasks run in any
order; a packet or a request may also be lost. A scene may be destroyed while it is in use. The
connections stay open. What reads the packets of the system ids is a parameter, as are the
`ChannelUidStore` and the sending of the connections, which may throw.

Results:
1. `messages_arrive`: what the handlers of a route get was sent once, by a peer that is connected
   to the scene, on the route and the scene of the same names; nothing is handled twice, and nothing
   is missing but what was lost or came for a scene that was destroyed.
-/

namespace Stormancer.Scene.P2PMessages

open Packets WeakSlots
open Streams (Machine OByteStream)
open Sending (ScenePeer PeerFilter Arguments)

/-! ## Data -/

/-- What `SceneDispatcher` has posted: the scenes, and the packets for them. -/
abbrev Posted := List (SceneId × Packet)

/-- What does not change in a run. A client is a number, and its connection to a peer is known by the
number of the peer. -/
structure Clients (σ : Type) where
  machine : Machine
  /-- The route handle before it is read. -/
  uninitialized : UInt16
  sessionId : Nat → Str
  /-- The id of the connection of a client to a peer. -/
  connectionId : Nat → Nat → UInt64
  connectionMetadata : Nat → Nat → List (Str × Str)
  /-- `address().toUri()`. -/
  uri : Nat → SceneId → Str
  id : Nat → SceneId → Str
  metadata : Nat → SceneId → List (Str × Str)
  host : Nat → SceneId → ScenePeer
  hostId : Nat → SceneId → UInt64
  /-- The scene of a client that is found for an uri. -/
  getScene : Nat → Str → Option SceneId
  connections : Nat → Sending.Connections σ
  /-- The processors for the system ids. -/
  handlers : UInt8 → Option (HandlerFunction Posted)
  uri_of_getScene : ∀ c uri' i, getScene c uri' = some i → uri c i = uri'
  /-- The host of a scene is no peer. -/
  connectionId_ne : ∀ c d i, connectionId c d ≠ hostId c i
  handlers_scenes : ∀ id, ¬ isSystemMessageId id → handlers id = none

/-- The part of a scene that has to do with peers. -/
structure PeerScene where
  routes : Routes
  /-- The entries of `_connectedPeers`, in the order of the iteration. -/
  peers : List (Str × ScenePeer)
  distinct : (peers.map Prod.fst).Nodup

/-- What a client still does. -/
inductive Task
  /-- The request of a scene of the peer. -/
  | connectToScene (client peer : Nat) (asking : SceneId) (message : P2PConnectToSceneMessage)
  /-- What follows the request or the response on either side. -/
  | peerConnected (client peer : Nat) (scene : SceneId) (message : P2PConnectToSceneMessage)
  /-- Bytes from the peer. -/
  | receive (client peer : Nat) (index : Nat) (bytes : List UInt8)
  | handleMessage (client peer : Nat) (scene : SceneId) (index : Nat) (stream : IByteStream)
deriving DecidableEq

/-- The message that the task is about. -/
def Task.index? : Task → Option Nat
  | connectToScene _ _ _ _ | peerConnected _ _ _ _ => none
  | receive _ _ index _ | handleMessage _ _ _ index _ => some index

/-- A message to one peer. -/
structure Sent where
  sender : Nat
  receiver : Nat
  scene : SceneId
  routeName : Str
  payload : List UInt8
deriving DecidableEq

/-- What `handleMessage` did. -/
structure Handled where
  index : Nat
  client : Nat
  scene : SceneId
  /-- The scene at that time. -/
  routes : Routes
  /-- The handlers that were run. -/
  handlers : Option (List Handler)
  /-- What the first one of them had to read. -/
  payload : List UInt8

structure State (σ : Type) where
  scenes : Nat → SceneId → PeerScene
  alive : Nat → SceneId → Bool
  /-- The handles of a client for its connection to a peer. -/
  handles : Nat → Nat → SceneHandles
  channels : Nat → σ
  tasks : List Task
  sent : List Sent
  handled : List Handled
  lost : List Nat
  /-- The messages that came for a scene that was destroyed. -/
  dropped : List Nat

variable {σ : Type}

def initial (n : Clients σ) (channels : Nat → σ) : State σ where
  scenes c i := ⟨Routes.initial (n.hostId c i), [], List.nodup_nil⟩
  alive _ _ := true
  handles _ _ := WeakSlots.empty
  channels := channels
  tasks := []
  sent := []
  handled := []
  lost := []
  dropped := []

/-! ## The code -/

/-- `P2PScenePeer`. -/
def scenePeer (peer : Nat) (message : P2PConnectToSceneMessage) : ScenePeer where
  handle := message.sceneHandle
  connection := peer
  routes := message.routes.map fun r => (r.name, r.handle)

namespace PeerScene

/-- `peerConnected`: an entry that is there already is kept. -/
def peerConnected (s : PeerScene) (sessionId : Str) (peer : ScenePeer) : PeerScene :=
  if h : ∃ entry ∈ s.peers, entry.1 = sessionId then s
  else
    { s with
      peers := s.peers ++ [(sessionId, peer)]
      distinct := by
        rw [List.map_append, List.map_singleton]
        refine List.nodup_append.mpr ⟨s.distinct, List.nodup_singleton _, ?_⟩
        rintro x hx y hy rfl
        obtain ⟨entry, hentry, hname⟩ := List.mem_map.mp hx
        exact h ⟨entry, hentry, hname.trans (List.mem_singleton.mp hy)⟩ }

/-- `raisePeerDisconnected`. -/
def raisePeerDisconnected (s : PeerScene) (sessionId : Str) : PeerScene where
  routes := s.routes
  peers := s.peers.filter (·.1 != sessionId)
  distinct := s.distinct.sublist (List.filter_sublist.map Prod.fst)

/-- The scene as `handleMessage` finds it. -/
def receiving (s : PeerScene) : Routes :=
  { s.routes with connectedPeers := s.peers.map Prod.fst }

end PeerScene

/-- What `handler_impl` posts. -/
def sceneProcessor (alive : SceneId → Bool) (handles : SceneHandles) : ProcessorFunction Posted :=
  fun sceneHandle packet posted =>
    match handlerImpl alive handles sceneHandle with
    | (processed, none) => .ok (processed, packet, posted)
    | (processed, some scene) => .ok (processed, packet, posted ++ [(scene, packet)])

namespace State

def setScene (s : State σ) (client : Nat) (scene : SceneId) (value : PeerScene) : State σ :=
  { s with
    scenes := Function.update s.scenes client (Function.update (s.scenes client) scene value) }

def setHandles (s : State σ) (client peer : Nat) (handles : SceneHandles) : State σ :=
  { s with
    handles := Function.update s.handles client (Function.update (s.handles client) peer handles) }

/-- Whether the scene was there and has come to `completeConnectionInitialization`. -/
def connected (s : State σ) (client : Nat) (scene : SceneId) : Bool :=
  s.alive client scene && (s.scenes client scene).routes.connectionResult.isSome

end State

section Code

variable (n : Clients σ)

def sceneInfo (s : State σ) (client : Nat) (scene : SceneId) : SceneInfo where
  id := scene
  uri := n.uri client scene
  localRoutes := (s.scenes client scene).routes.localRoutes
  metadata := n.metadata client scene

def sceneImpl (s : State σ) (client : Nat) (scene : SceneId) : Sending.SceneImpl where
  client := true
  connectionState := (s.scenes client scene).routes.connectionState
  id := n.id client scene
  host := n.host client scene
  connectedPeers := (s.scenes client scene).peers
  distinct := (s.scenes client scene).distinct

/-- What the dispatch of bytes from the peer posts. -/
def dispatch (s : State σ) (client peer : Nat) (bytes : List UInt8) : Posted :=
  let dispatcher : DefaultPacketDispatcher Posted :=
    ⟨n.handlers, [sceneProcessor (s.alive client) (s.handles client peer)]⟩
  match dispatcher.dispatchImpl ⟨n.connectionId client peer, .ofBytes bytes⟩ [] with
  | .ok (_, d) => d.world
  | .error _ => []

/-- `handleMessage`, from the read of the route handle on. -/
def handle (s : State σ) (client peer : Nat) (scene : SceneId) (index : Nat)
    (stream : IByteStream) : Handled :=
  let (routeHandle, stream) := stream.readUInt16 n.machine.order n.uninitialized
  let routes := (s.scenes client scene).receiving
  { index, client, scene, routes
    handlers := routes.handleMessage
      ⟨n.connectionId client peer, n.sessionId peer, routeHandle⟩
    payload := stream.unread }

/-- The service for `ID_CONNECT_TO_SCENE`, at a scene that was found. -/
def answer (s : State σ) (client peer : Nat) (scene asking : SceneId)
    (message : P2PConnectToSceneMessage) : State σ :=
  match connectToSceneService (s.alive client) (s.handles client peer)
      (some (sceneInfo n s client scene)) (n.connectionMetadata client peer) with
  | .error _ => s
  | .ok (response, handles) =>
    { s.setHandles client peer handles with
      tasks := s.tasks ++
        [.peerConnected peer client asking response, .peerConnected client peer scene message] }

/-- A task that was taken out runs. -/
def runTask (s : State σ) : Task → State σ
  | .connectToScene client peer asking message =>
    match n.getScene client message.sceneId with
    | none => s
    | some scene =>
      if s.connected client scene then answer n s client peer scene asking message else s
  | .peerConnected client peer scene message =>
    if s.alive client scene then
      s.setScene client scene
        ((s.scenes client scene).peerConnected (n.sessionId peer) (scenePeer peer message))
    else s
  | .receive client peer index bytes =>
    match dispatch n s client peer bytes with
    | [] => { s with dropped := s.dropped ++ [index] }
    | posted =>
      { s with
        tasks := s.tasks ++
          posted.map fun p => .handleMessage client peer p.1 index p.2.stream }
  | .handleMessage client peer scene index stream =>
    if s.alive client scene then
      { s with handled := s.handled ++ [handle n s client peer scene index stream] }
    else { s with dropped := s.dropped ++ [index] }

/-- The packets that the connections have taken are on their way. -/
def transmit (s : State σ) (client : Nat) (scene : SceneId) (a : Arguments)
    (packets : List Sending.Packet) : State σ :=
  { s with
    tasks := s.tasks ++ (packets.zipIdx s.sent.length).map fun p =>
      .receive p.1.peer.connection client p.2 p.1.bytes
    sent := s.sent ++ packets.map fun p =>
      ⟨client, p.peer.connection, scene, a.routeName, a.streamWriter.getD []⟩ }

/-! ## Steps -/

inductive Action
  /-- The scene has got the connection to the peer. -/
  | openP2PConnection (client peer : Nat) (scene : SceneId)
  | send (client : Nat) (scene : SceneId) (filter : PeerFilter) (a : Arguments)
  | run (k : Nat)
  | lose (k : Nat)
  | raisePeerDisconnected (client : Nat) (scene : SceneId) (sessionId : Str)
  /-- A call of the client, or the result of the connection to the host. -/
  | routes (client : Nat) (scene : SceneId) (a : Routes.Action)
  | destroy (client : Nat) (scene : SceneId)

/-- What a scene sends to its host is not followed. -/
def step (s : State σ) : Action → Option (State σ)
  | .openP2PConnection client peer scene =>
    if s.connected client scene then
      match openP2PConnection (s.alive client) (s.handles client peer)
          (sceneInfo n s client scene) (n.connectionMetadata client peer) with
      | .error _ => some s
      | .ok (message, handles) =>
        some { s.setHandles client peer handles with
          tasks := s.tasks ++ [.connectToScene peer client scene message] }
    else none
  | .send client scene filter a =>
    if s.alive client scene = true ∧ filter ≠ .matchSceneHost then
      let (_, w) := Sending.send n.machine (n.connections client) (sceneImpl n s client scene)
        filter a ⟨s.channels client, []⟩
      some { transmit s client scene a w.sent with
        channels := Function.update s.channels client w.state }
    else none
  | .run k =>
    match s.tasks[k]? with
    | none => none
    | some task => some (runTask n { s with tasks := s.tasks.eraseIdx k } task)
  | .lose k =>
    match s.tasks[k]? with
    | none => none
    | some task =>
      some { s with tasks := s.tasks.eraseIdx k, lost := s.lost ++ task.index?.toList }
  | .raisePeerDisconnected client scene sessionId =>
    some (s.setScene client scene ((s.scenes client scene).raisePeerDisconnected sessionId))
  | .routes client scene a =>
    match (s.scenes client scene).routes.step a with
    | none => none
    | some routes => some (s.setScene client scene { s.scenes client scene with routes := routes })
  | .destroy client scene =>
    some { s with
      alive := Function.update s.alive client (Function.update (s.alive client) scene false) }

/-- The slot that an allocation takes has a handle of its own and was never used, or there is
none. -/
def takesNewSlot (alive : SceneId → Bool) (handles : SceneHandles) : Bool :=
  (firstFree alive handles).all fun i => decide (i.val < 115) && (handles i).isNone

/-- The routes of a scene are added before the result of its connection, of which there is one. The
peers of a scene change with its table. -/
def keepsRoutes (r : Routes) : Routes.Action → Bool
  | .onMessage _ _ _ _ | .completeConnectionInitialization _ => r.connectionResult.isNone
  | .setConnectedPeers _ => false
  | .subscribe _ | .unsubscribe _ | .setConnectionState _ => true

/-- No slot is taken a second time, also after its scene was destroyed, and the scenes get their
routes as `Routes.Meets` and `keepsRoutes` say. -/
def fits (s : State σ) : Action → Bool
  | .openP2PConnection client peer _ => takesNewSlot (s.alive client) (s.handles client peer)
  | .run k =>
    match s.tasks[k]? with
    | some (.connectToScene client peer _ _) =>
      takesNewSlot (s.alive client) (s.handles client peer)
    | _ => true
  | .routes client scene a =>
    decide (Routes.Meets (s.scenes client scene).routes a) &&
      keepsRoutes (s.scenes client scene).routes a
  | .send _ _ _ _ | .lose _ | .raisePeerDisconnected _ _ _ | .destroy _ _ => true

abbrev Fits (s : State σ) (a : Action) : Prop := fits s a = true

/-! ## The property -/

/-- The message was for this client and a scene with the same uri, the handlers had exactly its
bytes to read, and they were those of the route with its name, or none when the sender was not
connected to the scene. -/
structure Arrives (e : Sent) (h : Handled) : Prop where
  client : h.client = e.receiver
  uri : n.uri h.client h.scene = n.uri e.sender e.scene
  payload : h.payload = e.payload
  handlers : h.handlers =
    some (if h.routes.connectedPeers.contains (n.sessionId e.sender) then
      (h.routes.localRoutes.filter (·.name == e.routeName)).flatMap (·.handlers) else [])

end Code

/-- The messages by where they are: on their way, handled, lost or dropped. -/
def State.indices (s : State σ) : List Nat :=
  s.tasks.filterMap Task.index? ++ (s.handled.map (·.index) ++ (s.lost ++ s.dropped))

/-! ## The invariant -/

/-- The route with the name is mapped to the handle, and takes messages of peers. -/
def Mapped (s : State σ) (client : Nat) (scene : SceneId) (name : Str) (k : UInt16) : Prop :=
  ∃ mappings, (s.scenes client scene).routes.connectionResult = some mappings ∧
    mappings.lookup name = some k ∧
    ∃ r ∈ (s.scenes client scene).routes.localRoutes,
      r.name = name ∧ r.filter.includes .peer = true

/-- The handle leads to the scene, on the connection of the client to the peer. -/
def Leads (s : State σ) (client peer : Nat) (scene : SceneId) (handle : UInt8) : Prop :=
  ∃ i : Fin sceneCount, i.val < 115 ∧ handle = slotHandle i ∧ s.handles client peer i = some scene

/-- A scene of the client knows the handles of the peer's scene with its uri. -/
def Addresses (n : Clients σ) (s : State σ) (client : Nat) (scene : SceneId) (p : ScenePeer) : Prop :=
  ∃ j, n.uri p.connection j = n.uri client scene ∧ Leads s p.connection client j p.handle ∧
    ∀ e ∈ p.routes, Mapped s p.connection j e.1 e.2

/-- The bytes are those of the message behind the handle of the scene. -/
def Carries (n : Clients σ) (s : State σ) (client peer : Nat) (scene : SceneId) (index : Nat)
    (bytes : List UInt8) : Prop :=
  ∃ e k, s.sent[index]? = some e ∧ e.sender = peer ∧ e.receiver = client ∧
    n.uri client scene = n.uri peer e.scene ∧ Mapped s client scene e.routeName k ∧
    bytes = (Streams.Fixed.uint16 k).memory n.machine.order ++ e.payload

def TaskOk (n : Clients σ) (s : State σ) : Task → Prop
  | .connectToScene client peer asking message =>
    message.sceneId = n.uri peer asking ∧ ∀ i, n.uri client i = n.uri peer asking →
      Addresses n s client i (scenePeer peer message)
  | .peerConnected client peer scene message => Addresses n s client scene (scenePeer peer message)
  | .receive client peer index bytes =>
    ∃ i handle rest, bytes = handle :: rest ∧ Leads s client peer i handle ∧
      Carries n s client peer i index rest
  | .handleMessage client peer scene index stream =>
    stream.good = true ∧ Carries n s client peer scene index stream.unread

/-- The scene that the message was for was destroyed. -/
def Gone (n : Clients σ) (s : State σ) (index : Nat) : Prop :=
  ∃ e i, s.sent[index]? = some e ∧ n.uri e.receiver i = n.uri e.sender e.scene ∧
    s.alive e.receiver i = false

/-- The routes of a scene, which are all mapped when it is connected. -/
structure RoutesOk (r : Routes) : Prop where
  inv : r.Inv
  mapped : ∀ mappings, r.connectionResult = some mappings →
    ∀ x ∈ r.localRoutes, (mappings.lookup x.name).isSome

/-- The invariant, with the messages that a task was taken out with. -/
structure Inv (n : Clients σ) (held : List Nat) (s : State σ) : Prop where
  routes : ∀ c i, RoutesOk (s.scenes c i).routes ∧ (s.scenes c i).routes.hostId = n.hostId c i
  peers : ∀ c i, ∀ e ∈ (s.scenes c i).peers, Addresses n s c i e.2
  tasks : ∀ t ∈ s.tasks, TaskOk n s t
  handled : ∀ h ∈ s.handled, ∃ e, s.sent[h.index]? = some e ∧ Arrives n e h
  dropped : ∀ k ∈ s.dropped, Gone n s k
  indices : (held ++ s.indices).Perm (List.range s.sent.length)

/-- What no step takes back. -/
structure Grows (s s' : State σ) : Prop where
  mapped : ∀ {c i name k}, Mapped s c i name k → Mapped s' c i name k
  handles : ∀ {c d k i}, s.handles c d k = some i → s'.handles c d k = some i
  sent : ∃ more, s'.sent = s.sent ++ more
  alive : ∀ {c i}, s.alive c i = false → s'.alive c i = false

/-! ### What lasts -/

section Grows

variable {n : Clients σ} {s s' : State σ} {held : List Nat}

theorem Grows.get (h : Grows s s') {index : Nat} {e : Sent} (he : s.sent[index]? = some e) :
    s'.sent[index]? = some e := by
  obtain ⟨more, hmore⟩ := h.sent
  have hlt : index < s.sent.length := (List.getElem?_eq_some_iff.mp he).1
  rw [hmore, List.getElem?_append_left hlt, he]

theorem Grows.leads (h : Grows s s') {c d : Nat} {i : SceneId} {handle : UInt8}
    (hl : Leads s c d i handle) : Leads s' c d i handle := by
  obtain ⟨k, hk, hhandle, hslot⟩ := hl
  exact ⟨k, hk, hhandle, h.handles hslot⟩

theorem Grows.addresses (h : Grows s s') {c : Nat} {i : SceneId} {p : ScenePeer}
    (ha : Addresses n s c i p) : Addresses n s' c i p := by
  obtain ⟨j, huri, hleads, hroutes⟩ := ha
  exact ⟨j, huri, h.leads hleads, fun e he => h.mapped (hroutes e he)⟩

theorem Grows.carries (h : Grows s s') {c d : Nat} {i : SceneId} {index : Nat}
    {bytes : List UInt8} (hc : Carries n s c d i index bytes) : Carries n s' c d i index bytes := by
  obtain ⟨e, k, he, hsender, hreceiver, huri, hmapped, hbytes⟩ := hc
  exact ⟨e, k, h.get he, hsender, hreceiver, huri, h.mapped hmapped, hbytes⟩

theorem Grows.taskOk (h : Grows s s') {t : Task} (ht : TaskOk n s t) : TaskOk n s' t := by
  cases t with
  | connectToScene client peer asking message =>
    exact ⟨ht.1, fun i hi => h.addresses (ht.2 i hi)⟩
  | peerConnected client peer scene message => exact h.addresses ht
  | receive client peer index bytes =>
    obtain ⟨i, handle, rest, hbytes, hleads, hcarries⟩ := ht
    exact ⟨i, handle, rest, hbytes, h.leads hleads, h.carries hcarries⟩
  | handleMessage client peer scene index stream => exact ⟨ht.1, h.carries ht.2⟩

theorem Grows.gone (h : Grows s s') {index : Nat} (hg : Gone n s index) : Gone n s' index := by
  obtain ⟨e, i, he, huri, halive⟩ := hg
  exact ⟨e, i, h.get he, huri, h.alive halive⟩

/-- The invariant of the next state from what is new in it. -/
theorem Inv.next {held' : List Nat} (hi : Inv n held s) (hg : Grows s s')
    (hroutes : ∀ c i, RoutesOk (s'.scenes c i).routes ∧
      (s'.scenes c i).routes.hostId = n.hostId c i)
    (hpeers : ∀ c i, ∀ e ∈ (s'.scenes c i).peers,
      e ∈ (s.scenes c i).peers ∨ Addresses n s' c i e.2)
    (htasks : ∀ t ∈ s'.tasks, t ∈ s.tasks ∨ TaskOk n s' t)
    (hhandled : ∀ h ∈ s'.handled, h ∈ s.handled ∨
      ∃ e, s'.sent[h.index]? = some e ∧ Arrives n e h)
    (hdropped : ∀ k ∈ s'.dropped, k ∈ s.dropped ∨ Gone n s' k)
    (hindices : (held' ++ s'.indices).Perm (List.range s'.sent.length)) : Inv n held' s' where
  routes := hroutes
  peers c i e he := (hpeers c i e he).elim (fun h => hg.addresses (hi.peers c i e h)) id
  tasks t ht := (htasks t ht).elim (fun h => hg.taskOk (hi.tasks t h)) id
  handled h hh := (hhandled h hh).elim
    (fun hold => (hi.handled h hold).imp fun _ he => ⟨hg.get he.1, he.2⟩) id
  dropped k hk := (hdropped k hk).elim (fun h => hg.gone (hi.dropped k h)) id
  indices := hindices

/-- A step that changes neither the scenes nor the handles. -/
theorem grows_of_same (hscenes : s'.scenes = s.scenes) (hhandles : s'.handles = s.handles)
    (hsent : ∃ more, s'.sent = s.sent ++ more)
    (halive : ∀ {c i}, s.alive c i = false → s'.alive c i = false) : Grows s s' where
  mapped h := by
    unfold Mapped
    rw [hscenes]
    exact h
  handles h := by rw [hhandles]; exact h
  sent := hsent
  alive := halive

end Grows

namespace P2PMessagesLemmas

open HandlesLemmas Routes.RoutesLemmas Sending.SendingLemmas

variable {n : Clients σ} {s s' : State σ} {held : List Nat}

/-! ### Handles -/

/-- What an allocation in a slot that was never used gives. -/
theorem allocated {alive : SceneId → Bool} {handles handles' : SceneHandles} {scene : SceneInfo}
    {metadata : List (Str × Str)} {message : P2PConnectToSceneMessage}
    (hnew : takesNewSlot alive handles = true)
    (h : openP2PConnection alive handles scene metadata = .ok (message, handles')) :
    ∃ k : Fin sceneCount, k.val < 115 ∧ handles k = none ∧
      handles' = store handles k scene.id ∧
      message = connectToSceneMessage scene (slotHandle k) metadata := by
  unfold takesNewSlot at hnew
  unfold openP2PConnection generateHandle at h
  cases hfree : firstFree alive handles with
  | none =>
    rw [hfree] at h
    cases h
  | some k =>
    rw [hfree] at hnew h
    have hboth := (Bool.and_eq_true _ _ ▸ hnew : decide (k.val < 115) = true ∧ _)
    cases h
    exact ⟨k, of_decide_eq_true hboth.1, Option.isNone_iff_eq_none.mp hboth.2, rfl, rfl⟩

theorem grows_setHandles {c d : Nat} {k : Fin sceneCount} {i : SceneId} (tasks : List Task)
    (hfree : s.handles c d k = none) :
    Grows s { s.setHandles c d (store (s.handles c d) k i) with tasks := tasks } where
  mapped h := h
  handles := by
    intro c' d' k' i' h
    unfold State.setHandles store
    dsimp only
    rw [Function.update_apply]
    split
    · next hc =>
      subst hc
      rw [Function.update_apply]
      split
      · next hd =>
        subst hd
        have hk : k' ≠ k := by
          rintro rfl
          rw [hfree] at h
          cases h
        rw [Function.update_of_ne hk]
        exact h
      · exact h
    · exact h
  sent := ⟨[], (List.append_nil _).symm⟩
  alive h := h

theorem leads_setHandles {c d : Nat} {k : Fin sceneCount} {i : SceneId} (tasks : List Task)
    (hk : k.val < 115) :
    Leads { s.setHandles c d (store (s.handles c d) k i) with tasks := tasks } c d i
      (slotHandle k) := by
  refine ⟨k, hk, rfl, ?_⟩
  unfold State.setHandles store
  dsimp only
  rw [Function.update_self, Function.update_self, Function.update_self]

/-! ### Routes -/

theorem mapped_of_route {c : Nat} {i : SceneId} (hok : RoutesOk (s.scenes c i).routes)
    (hconnected : (s.scenes c i).routes.connectionResult.isSome = true) {r : Route}
    (hr : r ∈ (s.scenes c i).routes.localRoutes) (hpeer : r.filter.includes .peer = true) :
    Mapped s c i r.name r.handle := by
  obtain ⟨mappings, hresult⟩ := Option.isSome_iff_exists.mp hconnected
  obtain ⟨k, hk⟩ := Option.isSome_iff_exists.mp (hok.mapped mappings hresult r hr)
  have hhandle := (hok.inv.connected mappings hresult).handle_eq r hr k hk
  rw [hhandle]
  exact ⟨mappings, hresult, hk, r, hr, rfl, hpeer⟩

/-- The routes that a message about a connected scene names. -/
theorem mapped_of_message {c d : Nat} {i : SceneId} (hok : RoutesOk (s.scenes c i).routes)
    (hconnected : (s.scenes c i).routes.connectionResult.isSome = true) {handle : UInt8}
    {metadata : List (Str × Str)} :
    ∀ e ∈ (scenePeer d (connectToSceneMessage (sceneInfo n s c i) handle metadata)).routes,
      Mapped s c i e.1 e.2 := by
  intro e he
  unfold scenePeer connectToSceneMessage at he
  rw [List.map_map, List.mem_map] at he
  obtain ⟨r, hr, rfl⟩ := he
  obtain ⟨hr, hpeer⟩ := List.mem_filter.mp hr
  exact mapped_of_route hok hconnected hr hpeer

/-- A step of the routes of a connected scene keeps its routes. -/
theorem routes_kept {r r' : Routes} {a : Routes.Action} (hstep : r.step a = some r')
    (hkeeps : keepsRoutes r a = true) {mappings : RouteMappings}
    (hresult : r.connectionResult = some mappings) :
    r'.connectionResult = some mappings ∧
      ∃ f : Route → Route, r'.localRoutes = r.localRoutes.map f ∧
        ∀ x, (f x).name = x.name ∧ (f x).filter = x.filter := by
  have hsame : ∀ r'' : Routes, r''.connectionResult = r.connectionResult →
      r''.localRoutes = r.localRoutes → r''.connectionResult = some mappings ∧
      ∃ f : Route → Route, r''.localRoutes = r.localRoutes.map f ∧
        ∀ x, (f x).name = x.name ∧ (f x).filter = x.filter := fun r'' hconnection hroutes =>
    ⟨hconnection.trans hresult, id, by rw [hroutes, List.map_id], fun _ => ⟨rfl, rfl⟩⟩
  unfold keepsRoutes at hkeeps
  cases a with
  | onMessage name filter metadata arrange =>
    rw [hresult] at hkeeps
    cases hkeeps
  | completeConnectionInitialization mappings' =>
    rw [hresult] at hkeeps
    cases hkeeps
  | setConnectedPeers sessionIds => cases hkeeps
  | setConnectionState state =>
    cases hstep
    exact hsame _ rfl rfl
  | subscribe name =>
    simp only [Routes.step] at hstep
    split at hstep
    · cases hstep
      exact ⟨hresult, _, rfl, fun _ => ⟨rfl, rfl⟩⟩
    · cases hstep
  | unsubscribe subscriber =>
    simp only [Routes.step] at hstep
    split at hstep
    · cases hstep
      exact ⟨hresult, _, rfl, fun _ => ⟨rfl, rfl⟩⟩
    · cases hstep

theorem hostId_step {r r' : Routes} {a : Routes.Action} (h : r.step a = some r') :
    r'.hostId = r.hostId := by
  cases a with
  | onMessage name filter metadata arrange =>
    rcases onMessage_cases h with rfl | ⟨_, -, -, rfl⟩ <;> rfl
  | subscribe name =>
    simp only [Routes.step] at h
    split at h <;> cases h
    rfl
  | unsubscribe subscriber =>
    simp only [Routes.step] at h
    split at h <;> cases h
    rfl
  | completeConnectionInitialization mappings =>
    cases h
    rfl
  | setConnectionState state =>
    cases h
    rfl
  | setConnectedPeers sessionIds =>
    cases h
    rfl

theorem routesOk_step {r r' : Routes} {a : Routes.Action} (hok : RoutesOk r)
    (hmeets : Routes.Meets r a) (hkeeps : keepsRoutes r a = true) (hstep : r.step a = some r') :
    RoutesOk r' := by
  refine ⟨inv_step r a r' hok.inv hmeets hstep, ?_⟩
  intro mappings hresult x hx
  cases hbefore : r.connectionResult with
  | some before =>
    obtain ⟨hafter, f, hroutes, hf⟩ := routes_kept hstep hkeeps hbefore
    cases hresult.symm.trans hafter
    rw [hroutes] at hx
    obtain ⟨y, hy, rfl⟩ := List.mem_map.mp hx
    rw [(hf y).1]
    exact hok.mapped _ hbefore y hy
  | none =>
    cases a with
    | completeConnectionInitialization mappings' =>
      cases hstep
      cases hresult
      obtain ⟨y, hy, rfl⟩ := List.mem_map.mp hx
      exact hmeets.1 y hy
    | onMessage name filter metadata arrange =>
      rcases onMessage_cases hstep with rfl | ⟨_, -, -, rfl⟩ <;> cases hbefore.symm.trans hresult
    | subscribe name =>
      simp only [Routes.step] at hstep
      split at hstep <;> cases hstep
      cases hbefore.symm.trans hresult
    | unsubscribe subscriber =>
      simp only [Routes.step] at hstep
      split at hstep <;> cases hstep
      cases hbefore.symm.trans hresult
    | setConnectionState state =>
      cases hstep
      cases hbefore.symm.trans hresult
    | setConnectedPeers sessionIds => cases hkeeps

/-! ### Bytes -/

theorem packetBytes_eq (m : Machine) (p : ScenePeer) (k : UInt16) (a : Arguments) :
    Sending.packetBytes m p k a =
      p.handle :: ((Streams.Fixed.uint16 k).memory m.order ++ a.streamWriter.getD []) := by
  unfold Sending.packetBytes OByteStream.written
  simp [OByteStream.Write.data, Streams.Scalar.memory, Streams.Fixed.memory_uint8]

/-- The processors of the system ids do not see the handle of a slot, and the processor of the scenes
finds the scene there. -/
theorem dispatch_of_leads {c d : Nat} {i : SceneId} {handle : UInt8} {rest : List UInt8}
    (h : Leads s c d i handle) :
    dispatch n s c d (handle :: rest) =
      if s.alive c i then [(i, ⟨n.connectionId c d, ⟨[handle], rest, true⟩⟩)] else [] := by
  obtain ⟨k, hk, rfl, hslot⟩ := h
  have hsystem : ¬ isSystemMessageId (slotHandle k) := by
    rw [isSystemMessageId_slotHandle]
    omega
  have hread : (IByteStream.ofBytes (slotHandle k :: rest)).readByte 0 =
      (slotHandle k, ⟨[slotHandle k], rest, true⟩) := rfl
  have hlock : lock (s.alive c) (s.handles c d) k = if s.alive c i then some i else none := by
    unfold lock
    rw [hslot, Option.filter_some]
  unfold dispatch DefaultPacketDispatcher.dispatchImpl DefaultPacketDispatcher.maxLayerCount
    DefaultPacketDispatcher.dispatchLoop DefaultPacketDispatcher.readType
  dsimp only
  rw [hread]
  dsimp only
  rw [n.handlers_scenes _ hsystem]
  dsimp only
  unfold DefaultPacketDispatcher.runProcessors sceneProcessor
  dsimp only
  rw [handlerImpl_slotHandle hk, hlock]
  cases s.alive c i <;> rfl

/-- What a call of `send` gives to the connections: packets for peers of the scene, on the route. -/
theorem sent_packets {m : Machine} {c : Sending.Connections σ} {scene : Sending.SceneImpl}
    {filter : PeerFilter} {a : Arguments} {w : Sending.World σ} (hfilter : filter ≠ .matchSceneHost)
    (hw : w.sent = []) {p : Sending.Packet}
    (hp : p ∈ (Sending.send m c scene filter a w).2.sent) :
    p.peer ∈ scene.connectedPeers.map Prod.snd ∧
      ∃ k, p.peer.routes.lookup a.routeName = some k ∧
        p.bytes = Sending.packetBytes m p.peer k a := by
  have htargets : ∀ target ∈ Sending.targets scene filter, ∀ peer ∈ target,
      peer ∈ scene.connectedPeers.map Prod.snd := by
    intro target htarget peer hpeer
    cases filter with
    | matchSceneHost => exact absurd rfl hfilter
    | matchAllP2P =>
      obtain ⟨entry, hentry, rfl⟩ := List.mem_map.mp htarget
      cases hpeer
      exact List.mem_map_of_mem hentry
    | matchPeers ids =>
      obtain ⟨id, -, rfl⟩ := List.mem_map.mp htarget
      obtain ⟨before, after, hsplit, -⟩ := List.lookup_eq_some_iff.mp hpeer
      rw [hsplit]
      simp
  have hspec : ∀ reached, Sending.SentTo m a w (Sending.send m c scene filter a w).2 reached →
      reached ⊆ Sending.targets scene filter → p.peer ∈ scene.connectedPeers.map Prod.snd ∧
      ∃ k, p.peer.routes.lookup a.routeName = some k ∧
        p.bytes = Sending.packetBytes m p.peer k a := by
    rintro reached ⟨packets, hsent, hpeers, hbytes⟩ hsub
    rw [hw, List.nil_append] at hsent
    rw [hsent] at hp
    have hreached : some p.peer ∈ reached := by
      rw [← hpeers]
      exact List.mem_map_of_mem hp
    exact ⟨htargets _ (hsub hreached) _ rfl, hbytes p hp⟩
  obtain ⟨hrefused, hends⟩ := Sending.sends_in_order (m := m) (c := c) scene filter a w
  cases hr : Sending.refused scene filter a with
  | some text =>
    rw [hrefused text hr, hw] at hp
    cases hp
  | none =>
    rcases hends hr with ⟨-, hsent⟩ | ⟨_, before, _, _, _, -, hsplit, -, -, hsent⟩
    · exact hspec _ hsent fun _ h => h
    · exact hspec _ hsent (by rw [hsplit]; exact List.subset_append_left _ _)

/-! ### `handleMessage` -/

/-- The handlers of the one route that is mapped to the handle, which is the one with the name. -/
theorem expected_of_mapped {r : Routes} (hi : r.Inv) {mappings : RouteMappings} {name : Str}
    {m : Message} (hresult : r.connectionResult = some mappings)
    (hname : mappings.lookup name = some m.routeHandle) {route : Route}
    (hroute : route ∈ r.localRoutes) (hroutename : route.name = name)
    (hpeer : route.filter.includes .peer = true) (hhost : m.connectionId ≠ r.hostId) :
    r.expected m = if r.connectedPeers.contains m.sessionId then
      (r.localRoutes.filter (·.name == name)).flatMap (·.handlers) else [] := by
  have halone := (hi.connected mappings hresult).alone route hroute m.routeHandle
    (by rw [hroutename, hname])
  have hadmits : r.admits m route.filter = r.connectedPeers.contains m.sessionId := by
    unfold Routes.admits
    rw [if_neg hhost, hpeer, Bool.and_true]
  have hadmitted : (r.localRoutes.filter fun x =>
      mappings.lookup x.name == some m.routeHandle && r.admits m x.filter) =
      [route].filter fun x => r.admits m x.filter := by
    rw [← halone, List.filter_filter]
    exact List.filter_congr fun x _ => Bool.and_comm _ _
  have hnamed : r.localRoutes.filter (·.name == name) = [route].filter (·.name == name) := by
    rw [← halone, List.filter_filter]
    refine List.filter_congr fun x _ => ?_
    by_cases hx : x.name = name
    · rw [hx, hname]
      simp
    · rw [beq_false_of_ne hx, Bool.false_and]
  unfold Routes.expected
  rw [hresult]
  dsimp only
  rw [hadmitted, hnamed, List.filter_singleton, List.filter_singleton, hadmits, hroutename]
  cases r.connectedPeers.contains m.sessionId <;> simp

theorem handle_of_carries (hi : Inv n held s) {c d : Nat} {i : SceneId} {index : Nat}
    {stream : IByteStream} (hgood : stream.good = true)
    (hc : Carries n s c d i index stream.unread) :
    ∃ e, s.sent[index]? = some e ∧ Arrives n e (handle n s c d i index stream) := by
  obtain ⟨e, k, he, rfl, rfl, huri, ⟨mappings, hresult, hname, route, hroute, hroutename, hpeer⟩,
    hbytes⟩ := hc
  have hread := IByteStream.readUInt16_of_unread hgood hbytes n.uninitialized
  have hinv : ((s.scenes e.receiver i).receiving).Inv :=
    inv_step _ (.setConnectedPeers ((s.scenes e.receiver i).peers.map Prod.fst)) _
      (hi.routes e.receiver i).1.inv trivial rfl
  have hhost : n.connectionId e.receiver e.sender ≠ (s.scenes e.receiver i).receiving.hostId := by
    have hsame : (s.scenes e.receiver i).receiving.hostId = n.hostId e.receiver i :=
      (hi.routes e.receiver i).2
    rw [hsame]
    exact n.connectionId_ne _ _ _
  have hexpected := expected_of_mapped hinv
    (m := ⟨n.connectionId e.receiver e.sender, n.sessionId e.sender, k⟩) hresult hname hroute
    hroutename hpeer hhost
  have hhandlers := (dispatch_of_inv hinv _).trans (congrArg some hexpected)
  refine ⟨e, he, ?_⟩
  unfold handle
  rw [hread]
  exact ⟨rfl, huri, rfl, hhandlers⟩

theorem gone_of_carries {c d : Nat} {i : SceneId} {index : Nat} {bytes : List UInt8}
    (hc : Carries n s c d i index bytes) (halive : s.alive c i = false) : Gone n s index := by
  obtain ⟨e, k, he, rfl, rfl, huri, -⟩ := hc
  exact ⟨e, i, he, huri, halive⟩

/-! ### Places of the messages -/

/-- A task is taken out. -/
theorem indices_eraseIdx {k : Nat} {task : Task} (h : s.tasks[k]? = some task) :
    s.indices.Perm
      (task.index?.toList ++ { s with tasks := s.tasks.eraseIdx k }.indices) := by
  obtain ⟨hlt, rfl⟩ := List.getElem?_eq_some_iff.mp h
  have hperm := (List.getElem_cons_eraseIdx_perm hlt).symm.filterMap Task.index?
  have hcons : (s.tasks[k] :: s.tasks.eraseIdx k).filterMap Task.index? =
      s.tasks[k].index?.toList ++ (s.tasks.eraseIdx k).filterMap Task.index? := by
    rw [List.filterMap_cons]
    cases s.tasks[k].index? <;> rfl
  rw [hcons] at hperm
  exact (hperm.append_right _).trans (.of_eq (List.append_assoc _ _ _))

theorem inv_take (hi : Inv n [] s) {k : Nat} {task : Task} (h : s.tasks[k]? = some task) :
    Inv n task.index?.toList { s with tasks := s.tasks.eraseIdx k } ∧
      TaskOk n { s with tasks := s.tasks.eraseIdx k } task := by
  have hg : Grows s { s with tasks := s.tasks.eraseIdx k } :=
    grows_of_same rfl rfl ⟨[], (List.append_nil _).symm⟩ id
  refine ⟨hi.next hg hi.routes (fun _ _ _ he => .inl he)
    (fun t ht => .inl (List.mem_of_mem_eraseIdx ht)) (fun _ hh => .inl hh) (fun _ hk => .inl hk)
    ((indices_eraseIdx h).symm.trans hi.indices), hg.taskOk (hi.tasks task ?_)⟩
  exact List.mem_of_getElem? h

theorem indices_post {t : Task} {index : Nat} (h : t.index? = some index) :
    (index :: s.indices).Perm { s with tasks := s.tasks ++ [t] }.indices := by
  unfold State.indices
  simp only [List.filterMap_append, List.filterMap_cons, h, List.filterMap_nil, List.append_assoc,
    List.singleton_append]
  exact List.perm_middle.symm

theorem indices_setHandles {c d : Nat} {handles : SceneHandles} {tasks : List Task}
    (h : ∀ t ∈ tasks, t.index? = none) :
    { s.setHandles c d handles with tasks := s.tasks ++ tasks }.indices = s.indices := by
  unfold State.indices
  dsimp only
  rw [List.filterMap_append, List.filterMap_eq_nil_iff.mpr h, List.append_nil]
  rfl

theorem indices_lose (more : List Nat) :
    (more ++ s.indices).Perm { s with lost := s.lost ++ more }.indices := by
  rw [List.perm_iff_count]
  intro x
  simp only [State.indices, List.count_append]
  omega

theorem indices_drop (index : Nat) :
    (index :: s.indices).Perm { s with dropped := s.dropped ++ [index] }.indices := by
  rw [List.perm_iff_count]
  intro x
  simp only [State.indices, List.count_append, List.count_cons, List.count_nil]
  omega

theorem indices_handle (h : Handled) :
    (h.index :: s.indices).Perm { s with handled := s.handled ++ [h] }.indices := by
  rw [List.perm_iff_count]
  intro x
  simp only [State.indices, List.map_append, List.map_cons, List.map_nil, List.count_append,
    List.count_cons, List.count_nil]
  omega

theorem indices_transmit {c : Nat} {i : SceneId} {a : Arguments} (packets : List Sending.Packet)
    (h : s.indices.Perm (List.range s.sent.length)) :
    (transmit s c i a packets).indices.Perm
      (List.range (transmit s c i a packets).sent.length) := by
  have hnew : ((packets.zipIdx s.sent.length).map fun p =>
      Task.receive p.1.peer.connection c p.2 p.1.bytes).filterMap Task.index? =
      List.range' s.sent.length packets.length := by
    rw [List.filterMap_map, ← List.zipIdx_map_snd, ← List.filterMap_eq_map]
    rfl
  have hrange : List.range (s.sent.length + packets.length) =
      List.range s.sent.length ++ List.range' s.sent.length packets.length := by
    rw [List.range_eq_range', List.range_eq_range', ← List.range'_append_1, Nat.zero_add]
  unfold transmit
  dsimp only
  rw [List.length_append, List.length_map, hrange]
  refine .trans ?_ (h.append_right _)
  unfold State.indices
  dsimp only
  rw [List.filterMap_append, hnew, List.perm_iff_count]
  intro x
  simp only [List.count_append]
  omega

/-! ### Scenes -/

theorem scenes_setScene (c : Nat) (i : SceneId) (value : PeerScene) (c' : Nat) (i' : SceneId) :
    (s.setScene c i value).scenes c' i' =
      if c' = c ∧ i' = i then value else s.scenes c' i' := by
  unfold State.setScene
  dsimp only
  by_cases hc : c' = c
  · subst hc
    rw [Function.update_self, Function.update_apply]
    simp
  · rw [Function.update_of_ne hc, if_neg fun h => hc h.1]

/-- Every scene after the change is the changed one or is as it was. -/
theorem setScene_cases {P : Nat → SceneId → PeerScene → Prop} {c : Nat} {i : SceneId}
    {value : PeerScene} (hnew : P c i value) (hold : ∀ c' i', P c' i' (s.scenes c' i'))
    (c' : Nat) (i' : SceneId) : P c' i' ((s.setScene c i value).scenes c' i') := by
  rw [scenes_setScene]
  split
  · next h =>
    obtain ⟨rfl, rfl⟩ := h
    exact hnew
  · exact hold c' i'

theorem grows_setScene {c : Nat} {i : SceneId} {value : PeerScene}
    (h : ∀ mappings, (s.scenes c i).routes.connectionResult = some mappings →
      value.routes.connectionResult = some mappings ∧
      ∀ r ∈ (s.scenes c i).routes.localRoutes, ∃ r' ∈ value.routes.localRoutes,
        r'.name = r.name ∧ r'.filter = r.filter) :
    Grows s (s.setScene c i value) where
  mapped := by
    intro c' i' name k hm
    unfold Mapped at hm ⊢
    rw [scenes_setScene]
    split
    · next hsame =>
      obtain ⟨rfl, rfl⟩ := hsame
      obtain ⟨mappings, hresult, hname, r, hr, rfl, hpeer⟩ := hm
      obtain ⟨hresult', hroutes⟩ := h mappings hresult
      obtain ⟨r', hr', hrname, hrfilter⟩ := hroutes r hr
      exact ⟨mappings, hresult', hname, r', hr', hrname, by rw [hrfilter, hpeer]⟩
    · exact hm
  handles h := h
  sent := ⟨[], (List.append_nil _).symm⟩
  alive h := h

/-- The peers of a scene change. -/
theorem inv_setPeers (hi : Inv n held s) {c : Nat} {i : SceneId} {value : PeerScene}
    (hroutes : value.routes = (s.scenes c i).routes)
    (hpeers : ∀ e ∈ value.peers, e ∈ (s.scenes c i).peers ∨ Addresses n s c i e.2) :
    Inv n held (s.setScene c i value) := by
  have hg : Grows s (s.setScene c i value) := grows_setScene fun mappings hresult => by
    rw [hroutes]
    exact ⟨hresult, fun r hr => ⟨r, hr, rfl, rfl⟩⟩
  refine hi.next hg ?_ ?_ (fun _ ht => .inl ht) (fun _ hh => .inl hh) (fun _ hk => .inl hk)
    hi.indices
  · exact setScene_cases (P := fun c i scene => RoutesOk scene.routes ∧
      scene.routes.hostId = n.hostId c i) (by rw [hroutes]; exact hi.routes c i) hi.routes
  · exact setScene_cases (P := fun c' i' scene => ∀ e ∈ scene.peers,
      e ∈ (s.scenes c' i').peers ∨ Addresses n (s.setScene c i value) c' i' e.2)
      (fun e he => (hpeers e he).imp_right hg.addresses) fun _ _ _ he => .inl he

theorem inv_peerConnected (hi : Inv n held s) {c d : Nat} {i : SceneId}
    {message : P2PConnectToSceneMessage} (ha : Addresses n s c i (scenePeer d message)) :
    Inv n held (s.setScene c i
      ((s.scenes c i).peerConnected (n.sessionId d) (scenePeer d message))) := by
  refine inv_setPeers hi ?_ ?_
  · unfold PeerScene.peerConnected
    split <;> rfl
  · intro e he
    unfold PeerScene.peerConnected at he
    split at he
    · exact .inl he
    · rcases List.mem_append.mp he with he | he
      · exact .inl he
      · rw [List.mem_singleton.mp he]
        exact .inr ha

theorem inv_routes (hi : Inv n held s) {c : Nat} {i : SceneId} {a : Routes.Action}
    {routes : Routes} (hmeets : Routes.Meets (s.scenes c i).routes a)
    (hkeeps : keepsRoutes (s.scenes c i).routes a = true)
    (hstep : (s.scenes c i).routes.step a = some routes) :
    Inv n held (s.setScene c i { s.scenes c i with routes := routes }) := by
  have hg : Grows s (s.setScene c i { s.scenes c i with routes := routes }) :=
    grows_setScene fun mappings hresult => by
      obtain ⟨hafter, f, hroutes, hf⟩ := routes_kept hstep hkeeps hresult
      refine ⟨hafter, fun r hr => ⟨f r, ?_, hf r⟩⟩
      dsimp only
      rw [hroutes]
      exact List.mem_map_of_mem hr
  refine hi.next hg ?_ ?_ (fun _ ht => .inl ht) (fun _ hh => .inl hh) (fun _ hk => .inl hk)
    hi.indices
  · exact setScene_cases (P := fun c i scene => RoutesOk scene.routes ∧
      scene.routes.hostId = n.hostId c i)
      ⟨routesOk_step (hi.routes c i).1 hmeets hkeeps hstep,
        (hostId_step hstep).trans (hi.routes c i).2⟩ hi.routes
  · exact setScene_cases (P := fun c' i' scene => ∀ e ∈ scene.peers,
      e ∈ (s.scenes c' i').peers ∨ Addresses n _ c' i' e.2) (fun _ he => .inl he)
      fun _ _ _ he => .inl he

/-! ### Steps -/

theorem connected_iff {c : Nat} {i : SceneId} (h : s.connected c i = true) :
    s.alive c i = true ∧ (s.scenes c i).routes.connectionResult.isSome = true :=
  Bool.and_eq_true _ _ ▸ h

/-- The request names the handle that the scene has got in the table. -/
theorem inv_openP2PConnection (hi : Inv n [] s) {c d : Nat} {i : SceneId}
    (hconnected : s.connected c i = true)
    (hnew : takesNewSlot (s.alive c) (s.handles c d) = true)
    {message : P2PConnectToSceneMessage} {handles : SceneHandles}
    (h : openP2PConnection (s.alive c) (s.handles c d) (sceneInfo n s c i)
      (n.connectionMetadata c d) = .ok (message, handles)) :
    Inv n [] { s.setHandles c d handles with
      tasks := s.tasks ++ [.connectToScene d c i message] } := by
  obtain ⟨k, hk, hfree, rfl, rfl⟩ := allocated hnew h
  have hg := grows_setHandles (i := i) (s.tasks ++ [.connectToScene d c i
    (connectToSceneMessage (sceneInfo n s c i) (slotHandle k) (n.connectionMetadata c d))]) hfree
  refine hi.next hg hi.routes (fun _ _ _ he => .inl he) ?_ (fun _ hh => .inl hh)
    (fun _ hk => .inl hk) ?_
  · intro t ht
    rcases List.mem_append.mp ht with ht | ht
    · exact .inl ht
    · rw [List.mem_singleton.mp ht]
      refine .inr ⟨rfl, fun j hj => ⟨i, hj.symm, leads_setHandles _ hk, fun e he => hg.mapped ?_⟩⟩
      exact mapped_of_message (hi.routes c i).1 (connected_iff hconnected).2 e he
  · rw [indices_setHandles (List.forall_mem_singleton.mpr rfl)]
    exact hi.indices

/-- The response does so too, and both sides go on with the handle of the other one. -/
theorem inv_answer (hi : Inv n [] s) {c d : Nat} {i asking : SceneId}
    {message : P2PConnectToSceneMessage} (hconnected : s.connected c i = true)
    (hnew : takesNewSlot (s.alive c) (s.handles c d) = true)
    (ht : TaskOk n s (.connectToScene c d asking message)) (huri : n.uri c i = message.sceneId) :
    Inv n [] (answer n s c d i asking message) := by
  unfold answer
  rw [connectToSceneService_eq]
  cases h : openP2PConnection (s.alive c) (s.handles c d) (sceneInfo n s c i)
    (n.connectionMetadata c d) with
  | error text => exact hi
  | ok r =>
    obtain ⟨response, handles⟩ := r
    obtain ⟨k, hk, hfree, rfl, rfl⟩ := allocated hnew h
    have hg := grows_setHandles (i := i) (s.tasks ++ [.peerConnected d c asking
      (connectToSceneMessage (sceneInfo n s c i) (slotHandle k) (n.connectionMetadata c d)),
      .peerConnected c d i message]) hfree
    refine hi.next hg hi.routes (fun _ _ _ he => .inl he) ?_ (fun _ hh => .inl hh)
      (fun _ hk => .inl hk) ?_
    · intro t htask
      rcases List.mem_append.mp htask with htask | htask
      · exact .inl htask
      · rcases List.mem_cons.mp htask with rfl | htask
        · refine .inr ⟨i, huri.trans ht.1, leads_setHandles _ hk, fun e he => hg.mapped ?_⟩
          exact mapped_of_message (hi.routes c i).1 (connected_iff hconnected).2 e he
        · rw [List.mem_singleton.mp htask]
          exact .inr (hg.addresses (ht.2 i (huri.trans ht.1)))
    · rw [indices_setHandles (by simp [Task.index?])]
      exact hi.indices

theorem inv_receive {c d index : Nat} {bytes : List UInt8} (hi : Inv n [index] s)
    (ht : TaskOk n s (.receive c d index bytes)) :
    Inv n [] (runTask n s (.receive c d index bytes)) := by
  obtain ⟨i, handle, rest, rfl, hleads, hcarries⟩ := ht
  unfold runTask
  dsimp only
  rw [dispatch_of_leads hleads]
  cases halive : s.alive c i with
  | true =>
    have hg : Grows s { s with tasks := s.tasks ++
        [.handleMessage c d i index ⟨[handle], rest, true⟩] } :=
      grows_of_same rfl rfl ⟨[], (List.append_nil _).symm⟩ id
    refine hi.next hg hi.routes (fun _ _ _ he => .inl he) ?_ (fun _ hh => .inl hh)
      (fun _ hk => .inl hk) ((indices_post rfl).symm.trans hi.indices)
    intro t ht
    rcases List.mem_append.mp ht with ht | ht
    · exact .inl ht
    · rw [List.mem_singleton.mp ht]
      exact .inr ⟨rfl, hg.carries hcarries⟩
  | false =>
    have hg : Grows s { s with dropped := s.dropped ++ [index] } :=
      grows_of_same rfl rfl ⟨[], (List.append_nil _).symm⟩ id
    refine hi.next hg hi.routes (fun _ _ _ he => .inl he) (fun _ ht => .inl ht)
      (fun _ hh => .inl hh) ?_ ((indices_drop index).symm.trans hi.indices)
    intro k hk
    rcases List.mem_append.mp hk with hk | hk
    · exact .inl hk
    · rw [List.mem_singleton.mp hk]
      exact .inr (hg.gone (gone_of_carries hcarries halive))

theorem inv_dropped {index : Nat} (hi : Inv n [index] s) (hgone : Gone n s index) :
    Inv n [] { s with dropped := s.dropped ++ [index] } := by
  have hg : Grows s { s with dropped := s.dropped ++ [index] } :=
    grows_of_same rfl rfl ⟨[], (List.append_nil _).symm⟩ id
  refine hi.next hg hi.routes (fun _ _ _ he => .inl he) (fun _ ht => .inl ht)
    (fun _ hh => .inl hh) ?_ ((indices_drop index).symm.trans hi.indices)
  intro k hk
  rcases List.mem_append.mp hk with hk | hk
  · exact .inl hk
  · rw [List.mem_singleton.mp hk]
    exact .inr (hg.gone hgone)

theorem inv_handleMessage {c d : Nat} {i : SceneId} {index : Nat} {stream : IByteStream}
    (hi : Inv n [index] s) (ht : TaskOk n s (.handleMessage c d i index stream)) :
    Inv n [] (runTask n s (.handleMessage c d i index stream)) := by
  obtain ⟨hgood, hcarries⟩ := ht
  unfold runTask
  dsimp only
  cases halive : s.alive c i with
  | false => exact inv_dropped hi (gone_of_carries hcarries halive)
  | true =>
    have hg : Grows s { s with handled := s.handled ++ [handle n s c d i index stream] } :=
      grows_of_same rfl rfl ⟨[], (List.append_nil _).symm⟩ id
    refine hi.next hg hi.routes (fun _ _ _ he => .inl he) (fun _ ht => .inl ht) ?_
      (fun _ hk => .inl hk) ((indices_handle (handle n s c d i index stream)).symm.trans hi.indices)
    intro h hh
    rcases List.mem_append.mp hh with hh | hh
    · exact .inl hh
    · rw [List.mem_singleton.mp hh]
      exact .inr (handle_of_carries hi hgood hcarries)

/-- A task that was taken out runs. -/
theorem inv_runTask {task : Task} (hi : Inv n task.index?.toList s) (ht : TaskOk n s task)
    (hfits : ∀ c d asking message, task = .connectToScene c d asking message →
      takesNewSlot (s.alive c) (s.handles c d) = true) : Inv n [] (runTask n s task) := by
  cases task with
  | connectToScene c d asking message =>
    unfold runTask
    dsimp only
    cases hscene : n.getScene c message.sceneId with
    | none => exact hi
    | some i =>
      dsimp only
      split
      · next hconnected =>
        exact inv_answer hi hconnected (hfits c d asking message rfl) ht
          (n.uri_of_getScene c _ i hscene)
      · exact hi
  | peerConnected c d i message =>
    unfold runTask
    dsimp only
    split
    · exact inv_peerConnected hi ht
    · exact hi
  | receive c d index bytes => exact inv_receive hi ht
  | handleMessage c d i index stream => exact inv_handleMessage hi ht

theorem inv_transmit (hi : Inv n [] s) {c : Nat} {i : SceneId} {a : Arguments}
    {packets : List Sending.Packet} (channels : Nat → σ)
    (hpackets : ∀ p ∈ packets, p.peer ∈ (s.scenes c i).peers.map Prod.snd ∧
      ∃ k, p.peer.routes.lookup a.routeName = some k ∧
        p.bytes = Sending.packetBytes n.machine p.peer k a) :
    Inv n [] { transmit s c i a packets with channels := channels } := by
  have hg : Grows s { transmit s c i a packets with channels := channels } :=
    grows_of_same rfl rfl ⟨_, rfl⟩ id
  refine hi.next hg hi.routes (fun _ _ _ he => .inl he) ?_ (fun _ hh => .inl hh)
    (fun _ hk => .inl hk) (indices_transmit packets hi.indices)
  intro t ht
  rcases List.mem_append.mp ht with ht | ht
  · exact .inl ht
  · obtain ⟨⟨p, index⟩, hp, rfl⟩ := List.mem_map.mp ht
    obtain ⟨hlow, hhigh, hget⟩ := List.mem_zipIdx hp
    have hmem : p ∈ packets := hget ▸ List.getElem_mem _
    obtain ⟨hpeer, k, hroute, hbytes⟩ := hpackets p hmem
    obtain ⟨entry, hentry, heq⟩ := List.mem_map.mp hpeer
    obtain ⟨j, huri, hleads, hroutes⟩ := hi.peers c i entry hentry
    rw [heq] at huri hleads hroutes
    obtain ⟨before, after, hsplit, -⟩ := List.lookup_eq_some_iff.mp hroute
    refine .inr ⟨j, p.peer.handle, _, hbytes.trans (packetBytes_eq n.machine p.peer k a),
      hg.leads hleads,
      ⟨c, p.peer.connection, i, a.routeName, a.streamWriter.getD []⟩, k, ?_, rfl, rfl, huri,
      hg.mapped (hroutes (a.routeName, k) (by rw [hsplit]; simp)), rfl⟩
    unfold transmit
    dsimp only
    rw [List.getElem?_append_right hlow, List.getElem?_map,
      List.getElem?_eq_getElem (by omega), ← hget]
    rfl

theorem inv_step (s : State σ) (a : Action) (s' : State σ) (hi : Inv n [] s) (hg : Fits s a)
    (h : step n s a = some s') : Inv n [] s' := by
  cases a with
  | openP2PConnection c d i =>
    simp only [step] at h
    split at h
    · next hconnected =>
      split at h
      · cases h
        exact hi
      · next message handles hok =>
        cases h
        exact inv_openP2PConnection hi hconnected hg hok
    · cases h
  | send c i filter a =>
    simp only [step] at h
    split at h
    · next hcond =>
      cases h
      exact inv_transmit hi _ fun p hp => sent_packets hcond.2 rfl hp
    · cases h
  | run k =>
    simp only [step] at h
    split at h
    · cases h
    · next task htask =>
      cases h
      obtain ⟨hi', ht⟩ := inv_take hi htask
      refine inv_runTask hi' ht ?_
      rintro c d asking message rfl
      unfold Fits fits at hg
      dsimp only at hg
      rw [htask] at hg
      exact hg
  | lose k =>
    simp only [step] at h
    split at h
    · cases h
    · next task htask =>
      cases h
      obtain ⟨hi', -⟩ := inv_take hi htask
      have hgrows : Grows { s with tasks := s.tasks.eraseIdx k }
          { s with tasks := s.tasks.eraseIdx k, lost := s.lost ++ task.index?.toList } :=
        grows_of_same rfl rfl ⟨[], (List.append_nil _).symm⟩ id
      exact hi'.next hgrows hi'.routes (fun _ _ _ he => .inl he) (fun _ ht => .inl ht)
        (fun _ hh => .inl hh) (fun _ hk => .inl hk) ((indices_lose _).symm.trans hi'.indices)
  | raisePeerDisconnected c i sessionId =>
    cases h
    exact inv_setPeers hi rfl fun e he => .inl (List.mem_filter.mp he).1
  | routes c i a =>
    simp only [step] at h
    split at h
    · cases h
    · next routes hstep =>
      cases h
      unfold Fits fits at hg
      dsimp only at hg
      rw [Bool.and_eq_true, decide_eq_true_eq] at hg
      exact inv_routes hi hg.1 hg.2 hstep
  | destroy c i =>
    cases h
    have hgrows : Grows s { s with
        alive := Function.update s.alive c (Function.update (s.alive c) i false) } := by
      refine grows_of_same rfl rfl ⟨[], (List.append_nil _).symm⟩ ?_
      intro c' i' halive
      dsimp only
      by_cases hc : c' = c
      · subst hc
        rw [Function.update_self, Function.update_apply]
        split
        · rfl
        · exact halive
      · rw [Function.update_of_ne hc]
        exact halive
    exact hi.next hgrows hi.routes (fun _ _ _ he => .inl he) (fun _ ht => .inl ht)
      (fun _ hh => .inl hh) (fun _ hk => .inl hk) hi.indices

theorem inv_initial (channels : Nat → σ) : Inv n [] (initial n channels) where
  routes _ _ := ⟨⟨Routes.RoutesLemmas.inv_initial _, fun _ h => nomatch h⟩, rfl⟩
  peers _ _ _ he := nomatch he
  tasks _ ht := nomatch ht
  handled _ hh := nomatch hh
  dropped _ hk := nomatch hk
  indices := .refl _

end P2PMessagesLemmas

open P2PMessagesLemmas

/-! ## Results -/

/-- In every run, whatever order the tasks run in: each message that was sent is on its way,
handled, lost or dropped, and only once; what is handled arrives as it was sent; and a message is
dropped only for a scene that was destroyed. -/
theorem messages_arrive {n : Clients σ} {channels : Nat → σ} {s : State σ}
    (h : Lts.Reachable (step n) Fits (initial n channels) s) :
    s.indices.Perm (List.range s.sent.length) ∧
      (∀ h ∈ s.handled, ∃ e, s.sent[h.index]? = some e ∧ Arrives n e h) ∧
      ∀ k ∈ s.dropped, Gone n s k := by
  have hi := h.invariant (inv_initial channels) inv_step
  exact ⟨hi.indices, hi.handled, hi.dropped⟩

/-- Two clients with one scene each. -/
def twoClients : Clients Unit where
  machine := ⟨.little, 8⟩
  uninitialized := 0
  sessionId c := [Char.ofNat (c + 97)]
  connectionId _ d := UInt64.ofNat (d % 2)
  connectionMetadata _ _ := []
  uri _ _ := ['s']
  id _ _ := ['s']
  metadata _ _ := []
  host _ _ := ⟨141, 2, []⟩
  hostId _ _ := 2
  getScene _ uri := if uri = ['s'] then some 0 else none
  connections _ := Sending.reliable
  handlers _ := none
  uri_of_getScene c uri i h := by
    split at h
    · next huri => exact huri.symm
    · cases h
  connectionId_ne _ d _ := by
    have hmod : d % 2 = 0 ∨ d % 2 = 1 := by omega
    rcases hmod with h | h <;> rw [h] <;> decide
  handlers_scenes _ _ := rfl

/-- Both scenes get a route, and one of them sends on it to the other one. -/
def oneMessage : List Action :=
  [.routes 0 0 (.onMessage ['r'] .all [] id), .routes 1 0 (.onMessage ['r'] .peer [] id),
    .routes 1 0 (.subscribe ['r']),
    .routes 0 0 (.completeConnectionInitialization (AList.singleton ['r'] 7)),
    .routes 1 0 (.completeConnectionInitialization (AList.singleton ['r'] 9)),
    .routes 0 0 (.setConnectionState .connected), .openP2PConnection 0 1 0, .run 0, .run 1, .run 0,
    .send 0 0 .matchAllP2P ⟨['r'], some [5, 6], []⟩, .run 0, .run 0]

theorem messages_arrive_one : ∃ s, Lts.Reachable (step twoClients) Fits
      (initial twoClients fun _ => ()) s ∧
    s.handled.map (fun h => (h.payload, h.handlers)) = [([5, 6], some [⟨.peer, 0⟩])] ∧
    s.indices.Perm (List.range s.sent.length) ∧
      (∀ h ∈ s.handled, ∃ e, s.sent[h.index]? = some e ∧ Arrives twoClients e h) ∧
      ∀ k ∈ s.dropped, Gone twoClients s k := by
  obtain ⟨s, hs, hp⟩ := Lts.Reachable.of_exec (step twoClients) Fits (initial twoClients fun _ => ())
    oneMessage (fun s => decide (s.handled.map (fun h => (h.payload, h.handlers)) =
      [([5, 6], some [⟨.peer, 0⟩])])) (by decide +kernel)
  exact ⟨s, hs, of_decide_eq_true hp, messages_arrive hs⟩

end Stormancer.Scene.P2PMessages
