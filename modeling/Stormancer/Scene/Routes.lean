import Mathlib.Data.UInt
import Stormancer.Lib.Run
import Stormancer.Lib.Slots
import Stormancer.Utilities.StringSplit

/-!
# The routes of a scene

The local routes of `Scene_Impl` and the dispatch of the messages of the scene: `onMessage`,
`completeConnectionInitialization`, `handleMessage`, and the handler that a subscription to the
observable of a route adds to the route.

`_localRoutes` is an unordered map. It is modelled as the list of its routes in the order in
which the map iterates over them; an insertion may change that order in any way. A message is
modelled after its route handle has been read. What the subscribers do with a packet, the event
`_onPacketReceived`, the log, and the packet's metadata are left out.

Results:
1. `dispatch_of_run`: in every run whose steps meet `Meets`, every message runs exactly the
   handlers of the local route that the server mapped to the handle of the message and whose
   filter admits its sender.
2. `unmapped_route_receives`: a local route that the server did not map receives the messages
   of handle 0 when it is the only route with that handle.
3. `late_route_receives`: a run in which a route is added after the request of the connection
   was sent; it then receives a message although the server never mapped it.
-/

namespace Stormancer.Scene

/-! ## Data -/

inductive ConnectionState
  | disconnected
  | connecting
  | connected
  | disconnecting
deriving DecidableEq

inductive MessageOriginFilter
  | host
  | peer
  | all
deriving DecidableEq

/-- The values of the enumeration. -/
def MessageOriginFilter.toByte : MessageOriginFilter → UInt8
  | .host => 1
  | .peer => 2
  | .all => 0xFF

/-- The test `(int)filter & (int)origin` of the source. -/
def MessageOriginFilter.includes (filter origin : MessageOriginFilter) : Bool :=
  filter.toByte &&& origin.toByte != 0

/-- What the observable of a route pushes into the route: it captures the route and the
subscriber. The filter of a route never changes. -/
structure Handler where
  filter : MessageOriginFilter
  subscriber : Nat
deriving DecidableEq

structure Route where
  name : Str
  handle : UInt16
  filter : MessageOriginFilter
  metadata : List (Str × Str)
  handlers : List Handler
deriving DecidableEq

/-- `ConnectionResult::RouteMappings`. -/
abbrev RouteMappings := Slots.Table Str UInt16

/-- The part of `Scene_Impl` that has to do with routes. -/
structure Routes where
  connectionState : ConnectionState
  /-- The id of the connection to the host. -/
  hostId : UInt64
  /-- The session ids in `_connectedPeers`. -/
  connectedPeers : List Str
  localRoutes : List Route
  /-- `_handlers`. -/
  handlers : Slots.Table UInt16 (List Handler)
  /-- The number of subscriptions made so far. -/
  subscribers : Nat
  unsubscribed : List Nat
  /-- The route mappings of the last `ConnectionResult`. -/
  connectionResult : Option RouteMappings

/-- A message of the scene. -/
structure Message where
  connectionId : UInt64
  sessionId : Str
  routeHandle : UInt16
deriving DecidableEq

namespace Routes

/-- A scene that was just created. -/
def initial (hostId : UInt64) : Routes where
  connectionState := .disconnected
  hostId := hostId
  connectedPeers := []
  localRoutes := []
  handlers := ∅
  subscribers := 0
  unsubscribed := []
  connectionResult := none

/-! ## The code -/

/-- The route that `onMessage` makes. -/
def newRoute (name : Str) (filter : MessageOriginFilter) (metadata : List (Str × Str)) : Route where
  name := name
  handle := 0
  filter := filter
  metadata := metadata
  handlers := []

/-- `onMessage(routeName, filter, metadata)`. `arrange` is the order of the map after the
insertion. -/
def onMessage (s : Routes) (name : Str) (filter : MessageOriginFilter)
    (metadata : List (Str × Str)) (arrange : List Route → List Route) : Except String Routes :=
  if s.connectionState ≠ .disconnected ∧ s.connectionState ≠ .connecting then
    .error "A route cannot be added to a scene already connected."
  else if name.length = 0 ∨ name.head? = some '@' then
    .error "A route cannot be empty or start with the '@' character."
  else if s.localRoutes.any (·.name == name) then
    .error "A route already exists for this route name."
  else .ok { s with localRoutes := arrange (newRoute name filter metadata :: s.localRoutes) }

/-- Every local route gets the handlers that `f` gives for it. -/
def modifyHandlers (s : Routes) (f : Route → List Handler) : List Route :=
  s.localRoutes.map fun r => { r with handlers := f r }

/-- A subscription to the observable that `onMessage(route)` returned. -/
def subscribe (s : Routes) (name : Str) : Routes :=
  { s with
    localRoutes := s.modifyHandlers fun r =>
      if r.name = name then r.handlers ++ [⟨r.filter, s.subscribers⟩] else r.handlers
    subscribers := s.subscribers + 1 }

/-- The end of a subscription. -/
def unsubscribe (s : Routes) (subscriber : Nat) : Routes :=
  { s with
    localRoutes := s.modifyHandlers fun r => r.handlers.filter (·.subscriber != subscriber)
    unsubscribed := subscriber :: s.unsubscribed }

/-- `cr.RouteMappings[name]`, which adds the handle 0 for a name that is not there. -/
def mappedHandle (mappings : RouteMappings) (name : Str) : UInt16 :=
  (mappings.lookup name).getD 0

/-- `route->setHandle`. -/
def setHandle (mappings : RouteMappings) (r : Route) : Route :=
  { r with handle := mappedHandle mappings r.name }

/-- `_handlers[route->handle()] = route->handlers`. -/
def storeHandlers (handlers : Slots.Table UInt16 (List Handler)) (r : Route) :
    Slots.Table UInt16 (List Handler) :=
  handlers.insert r.handle r.handlers

def completeConnectionInitialization (s : Routes) (mappings : RouteMappings) : Routes :=
  { s with
    localRoutes := s.localRoutes.map (setHandle mappings)
    handlers := (s.localRoutes.map (setHandle mappings)).foldl storeHandlers s.handlers
    connectionResult := some mappings }

/-- Whether a route with that filter takes messages of the sender: the host, or a peer that is
connected to the scene. -/
def admits (s : Routes) (m : Message) (filter : MessageOriginFilter) : Bool :=
  if m.connectionId = s.hostId then filter.includes .host
  else s.connectedPeers.contains m.sessionId && filter.includes .peer

/-- Whether the handler passes the packet to its subscriber. -/
def handlerRuns (s : Routes) (m : Message) (h : Handler) : Bool :=
  !s.unsubscribed.contains h.subscriber && s.admits m h.filter

/-- The handlers that `handleMessage` runs; `none` is the use of a route that was not found. -/
def handleMessage (s : Routes) (m : Message) : Option (List Handler) :=
  match s.handlers.lookup m.routeHandle with
  | none => some []
  | some observers =>
    match s.localRoutes.find? (·.handle == m.routeHandle) with
    | none => none
    | some route =>
      if m.connectionId = s.hostId ∧ route.filter.includes .host = false then some []
      else if m.connectionId ≠ s.hostId ∧ route.filter.includes .peer = false then some []
      else some (observers.filter (s.handlerRuns m))

/-! ## Runs -/

inductive Action
  | onMessage (name : Str) (filter : MessageOriginFilter) (metadata : List (Str × Str))
      (arrange : List Route → List Route)
  | subscribe (name : Str)
  | unsubscribe (subscriber : Nat)
  | completeConnectionInitialization (mappings : RouteMappings)
  | setConnectionState (state : ConnectionState)
  | setConnectedPeers (sessionIds : List Str)

/-- One step of the scene. A call that throws leaves the scene as it was. -/
def step (s : Routes) : Action → Option Routes
  | .onMessage name filter metadata arrange =>
    let routes := newRoute name filter metadata :: s.localRoutes
    if (arrange routes).Perm routes then
      match s.onMessage name filter metadata arrange with
      | .ok s' => some s'
      | .error _ => some s
    else none
  | .subscribe name =>
    if s.localRoutes.any (·.name == name) then some (s.subscribe name) else none
  | .unsubscribe subscriber =>
    if subscriber < s.subscribers then some (s.unsubscribe subscriber) else none
  | .completeConnectionInitialization mappings =>
    some (s.completeConnectionInitialization mappings)
  | .setConnectionState state => some { s with connectionState := state }
  | .setConnectedPeers sessionIds => some { s with connectedPeers := sessionIds }

/-- The handlers of the local routes that the server mapped to the handle of the message and
whose filter admits the sender. -/
def expected (s : Routes) (m : Message) : List Handler :=
  match s.connectionResult with
  | none => []
  | some mappings =>
    (s.localRoutes.filter fun r =>
      mappings.lookup r.name == some m.routeHandle && s.admits m r.filter).flatMap (·.handlers)

/-- The condition on a step:
* a `ConnectionResult` maps every local route, to handles that are all different, and maps a
  route to each handle that the result before it had mapped;
* a route that is added after a `ConnectionResult` is not mapped by it, and no route is mapped
  to the handle 0;
* no handler is added to a route that was mapped already. -/
def Meets (s : Routes) : Action → Prop
  | .onMessage name filter metadata arrange =>
    (s.onMessage name filter metadata arrange).isOk = true → ∀ mappings ∈ s.connectionResult,
      mappings.lookup name = none ∧ ∀ r ∈ s.localRoutes, mappings.lookup r.name ≠ some 0
  | .subscribe name => ∀ mappings ∈ s.connectionResult, mappings.lookup name = none
  | .completeConnectionInitialization mappings =>
    (∀ r ∈ s.localRoutes, (mappings.lookup r.name).isSome) ∧
    (s.localRoutes.map fun r => mappings.lookup r.name).Nodup ∧
    ∀ before ∈ s.connectionResult, ∀ r ∈ s.localRoutes, (before.lookup r.name).isSome →
      ∃ r' ∈ s.localRoutes, mappings.lookup r'.name = before.lookup r.name
  | .unsubscribe _ | .setConnectionState _ | .setConnectedPeers _ => True

instance (s : Routes) : (a : Action) → Decidable (Meets s a)
  | .onMessage _ _ _ _ | .subscribe _ => by unfold Meets; infer_instance
  | .completeConnectionInitialization _ => by unfold Meets; infer_instance
  | .unsubscribe _ | .setConnectionState _ | .setConnectedPeers _ => inferInstanceAs (Decidable True)

/-- What the dispatch needs to know about the result of the connection. -/
structure Mapped (s : Routes) (mappings : RouteMappings) : Prop where
  handle_eq : ∀ r ∈ s.localRoutes, ∀ k, mappings.lookup r.name = some k → r.handle = k
  stored : ∀ r ∈ s.localRoutes, ∀ k, mappings.lookup r.name = some k →
    ∃ observers, s.handlers.lookup k = some observers ∧
      observers.filter (fun h => !s.unsubscribed.contains h.subscriber) = r.handlers
  alone : ∀ r ∈ s.localRoutes, ∀ k, mappings.lookup r.name = some k →
    s.localRoutes.filter (fun r' => mappings.lookup r'.name == some k) = [r]
  unmapped : ∀ r ∈ s.localRoutes, mappings.lookup r.name = none → s.handlers.lookup r.handle = none
  key : ∀ k observers, s.handlers.lookup k = some observers →
    ∃ r ∈ s.localRoutes, mappings.lookup r.name = some k

/-- The invariant of the guarded runs. -/
structure Inv (s : Routes) : Prop where
  filter_eq : ∀ r ∈ s.localRoutes, ∀ h ∈ r.handlers, h.filter = r.filter
  live : ∀ r ∈ s.localRoutes, ∀ h ∈ r.handlers, h.subscriber ∉ s.unsubscribed
  fresh : ∀ x ∈ s.unsubscribed, x < s.subscribers
  unconnected : s.connectionResult = none → s.handlers = ∅
  connected : ∀ mappings, s.connectionResult = some mappings → Mapped s mappings

/-! ## Lemmas -/

namespace RoutesLemmas

theorem filter_map_eq_singleton {α β : Type} [BEq β] [LawfulBEq β] {f : α → β} {l : List α} {a : α}
    (hnodup : (l.map f).Nodup) (ha : a ∈ l) : l.filter (fun b => f b == f a) = [a] := by
  induction l with
  | nil => cases ha
  | cons b l ih =>
    rw [List.map_cons, List.nodup_cons] at hnodup
    obtain ⟨hb, hl⟩ := hnodup
    rcases List.mem_cons.mp ha with rfl | ha
    · rw [List.filter_cons_of_pos (by simp)]
      congr 1
      rw [List.filter_eq_nil_iff]
      intro c hc hca
      exact hb (List.mem_map.mpr ⟨c, hc, eq_of_beq hca⟩)
    · have hne : f b ≠ f a := fun h => hb (h ▸ List.mem_map_of_mem ha)
      rw [List.filter_cons_of_neg (by simpa using hne)]
      exact ih hl ha

theorem foldl_storeHandlers_of_not_mem {k : UInt16} {routes : List Route}
    (h : ∀ r ∈ routes, r.handle ≠ k) (handlers : Slots.Table UInt16 (List Handler)) :
    (routes.foldl storeHandlers handlers).lookup k = handlers.lookup k := by
  induction routes generalizing handlers with
  | nil => rfl
  | cons r routes ih =>
    rw [List.foldl_cons, ih fun r' hr' => h r' (List.mem_cons_of_mem _ hr')]
    unfold storeHandlers
    rw [Slots.Table.lookup_insert_eq, if_neg (h r List.mem_cons_self).symm]

/-- When no other route has its handle, the last write to it is the one of the route. -/
theorem foldl_storeHandlers_of_mem {r : Route} {routes : List Route} (hr : r ∈ routes)
    (hsame : ∀ r' ∈ routes, r'.handle = r.handle → r' = r)
    (handlers : Slots.Table UInt16 (List Handler)) :
    (routes.foldl storeHandlers handlers).lookup r.handle = some r.handlers := by
  induction routes generalizing handlers with
  | nil => cases hr
  | cons r' routes ih =>
    rw [List.foldl_cons]
    by_cases hmem : r ∈ routes
    · exact ih hmem (fun r'' hr'' => hsame r'' (List.mem_cons_of_mem _ hr'')) _
    · have hother : ∀ r'' ∈ routes, r''.handle ≠ r.handle := by
        intro r'' hr'' heq
        rw [hsame r'' (List.mem_cons_of_mem _ hr'') heq] at hr''
        exact hmem hr''
      rw [foldl_storeHandlers_of_not_mem hother]
      rcases List.mem_cons.mp hr with rfl | hr
      · exact AList.lookup_insert _
      · exact absurd hr hmem

/-- A handle of the table is a handle from before, or that of a route. -/
theorem foldl_storeHandlers_some {k : UInt16} {observers : List Handler} {routes : List Route}
    {handlers : Slots.Table UInt16 (List Handler)}
    (h : (routes.foldl storeHandlers handlers).lookup k = some observers) :
    (∃ r ∈ routes, r.handle = k) ∨ handlers.lookup k = some observers := by
  by_cases hk : ∃ r ∈ routes, r.handle = k
  · exact .inl hk
  · rw [foldl_storeHandlers_of_not_mem (fun r hr heq => hk ⟨r, hr, heq⟩)] at h
    exact .inr h

theorem mappedHandle_of_some {mappings : RouteMappings} {name : Str} {k : UInt16}
    (h : mappings.lookup name = some k) : mappedHandle mappings name = k := by
  unfold mappedHandle
  rw [h, Option.getD_some]

/-! ### The steps -/

/-- What a successful `onMessage` does. -/
theorem onMessage_cases {s s' : Routes} {name : Str} {filter : MessageOriginFilter}
    {metadata : List (Str × Str)} {arrange : List Route → List Route}
    (h : step s (.onMessage name filter metadata arrange) = some s') :
    s' = s ∨ ∃ routes : List Route, (s.onMessage name filter metadata arrange).isOk = true ∧
      routes.Perm (newRoute name filter metadata :: s.localRoutes) ∧
      s' = { s with localRoutes := routes } := by
  simp only [step] at h
  split at h
  · next hperm =>
    split at h
    · next s'' hok =>
      cases h
      have hadded : (s.onMessage name filter metadata arrange).isOk = true := by
        rw [hok]
        rfl
      unfold onMessage at hok
      repeat' split at hok
      · cases hok
      · cases hok
      · cases hok
      · cases hok
        exact .inr ⟨_, hadded, hperm, rfl⟩
    · cases h
      exact .inl rfl
  · cases h

/-- The handlers of the routes change, and only those of routes that are not mapped or as the
subscribers that are gone do. -/
theorem mapped_modifyHandlers {s : Routes} {mappings : RouteMappings} (f : Route → List Handler)
    {subscribers : Nat} {unsubscribed : List Nat} (h : Mapped s mappings)
    (hf : ∀ r ∈ s.localRoutes, ∀ k, mappings.lookup r.name = some k →
      ∀ observers : List Handler,
        observers.filter (fun h => !s.unsubscribed.contains h.subscriber) = r.handlers →
        observers.filter (fun h => !unsubscribed.contains h.subscriber) = f r) :
    Mapped { s with localRoutes := s.modifyHandlers f, subscribers := subscribers,
                    unsubscribed := unsubscribed } mappings := by
  have mem : ∀ r' ∈ s.modifyHandlers f, ∃ r ∈ s.localRoutes, r' = { r with handlers := f r } := by
    intro r' hr'
    obtain ⟨r, hr, rfl⟩ := List.mem_map.mp hr'
    exact ⟨r, hr, rfl⟩
  constructor
  · intro r' hr' k hk
    obtain ⟨r, hr, rfl⟩ := mem r' hr'
    exact h.handle_eq r hr k hk
  · intro r' hr' k hk
    obtain ⟨r, hr, rfl⟩ := mem r' hr'
    obtain ⟨observers, hstored, heq⟩ := h.stored r hr k hk
    exact ⟨observers, hstored, hf r hr k hk observers heq⟩
  · intro r' hr' k hk
    obtain ⟨r, hr, rfl⟩ := mem r' hr'
    have halone := h.alone r hr k hk
    simp only [modifyHandlers, List.filter_map, Function.comp_def]
    rw [halone]
    rfl
  · intro r' hr' hk
    obtain ⟨r, hr, rfl⟩ := mem r' hr'
    exact h.unmapped r hr hk
  · intro k observers hk
    obtain ⟨r, hr, hmap⟩ := h.key k observers hk
    exact ⟨_, List.mem_map_of_mem hr, hmap⟩

theorem inv_onMessage {s s' : Routes} {name : Str} {filter : MessageOriginFilter}
    {metadata : List (Str × Str)} {arrange : List Route → List Route} (hi : Inv s)
    (hg : Meets s (.onMessage name filter metadata arrange))
    (h : step s (.onMessage name filter metadata arrange) = some s') : Inv s' := by
  rcases onMessage_cases h with rfl | ⟨routes, hadded, hperm, rfl⟩
  · exact hi
  have mem : ∀ r ∈ routes, r = newRoute name filter metadata ∨ r ∈ s.localRoutes := by
    intro r hr
    exact List.mem_cons.mp (hperm.mem_iff.mp hr)
  have old : ∀ r ∈ s.localRoutes, r ∈ routes := by
    intro r hr
    exact hperm.mem_iff.mpr (List.mem_cons_of_mem _ hr)
  constructor
  · intro r hr x hx
    rcases mem r hr with rfl | hr
    · cases hx
    · exact hi.filter_eq r hr x hx
  · intro r hr x hx
    rcases mem r hr with rfl | hr
    · cases hx
    · exact hi.live r hr x hx
  · exact hi.fresh
  · exact hi.unconnected
  · intro mappings hresult
    have hm := hi.connected mappings hresult
    obtain ⟨hname, hzero⟩ := hg hadded mappings hresult
    have hnew : ∀ k, mappings.lookup (newRoute name filter metadata).name ≠ some k := by
      intro k hk
      cases hname.symm.trans hk
    constructor
    · intro r hr k hk
      rcases mem r hr with rfl | hr
      · exact absurd hk (hnew k)
      · exact hm.handle_eq r hr k hk
    · intro r hr k hk
      rcases mem r hr with rfl | hr
      · exact absurd hk (hnew k)
      · exact hm.stored r hr k hk
    · intro r hr k hk
      rcases mem r hr with rfl | hr
      · exact absurd hk (hnew k)
      · have hfilter := hperm.filter fun r' => mappings.lookup r'.name == some k
        rw [List.filter_cons_of_neg (by simpa using hnew k), hm.alone r hr k hk] at hfilter
        exact List.perm_singleton.mp hfilter
    · intro r hr hk
      rcases mem r hr with rfl | hr
      · cases hkey : s.handlers.lookup (newRoute name filter metadata).handle with
        | none => rfl
        | some observers =>
          obtain ⟨r, hr, hmap⟩ := hm.key _ observers hkey
          exact absurd hmap (hzero r hr)
      · exact hm.unmapped r hr hk
    · intro k observers hk
      obtain ⟨r, hr, hmap⟩ := hm.key k observers hk
      exact ⟨r, old r hr, hmap⟩

theorem inv_subscribe {s : Routes} {name : Str} (hi : Inv s) (hg : Meets s (.subscribe name)) :
    Inv (s.subscribe name) := by
  constructor
  · intro r' hr' x hx
    obtain ⟨r, hr, rfl⟩ := List.mem_map.mp hr'
    dsimp only at hx ⊢
    split at hx
    · rcases List.mem_append.mp hx with hx | hx
      · exact hi.filter_eq r hr x hx
      · rw [List.mem_singleton.mp hx]
    · exact hi.filter_eq r hr x hx
  · intro r' hr' x hx
    obtain ⟨r, hr, rfl⟩ := List.mem_map.mp hr'
    dsimp only at hx
    split at hx
    · rcases List.mem_append.mp hx with hx | hx
      · exact hi.live r hr x hx
      · rw [List.mem_singleton.mp hx]
        intro hmem
        exact absurd (hi.fresh _ hmem) (Nat.lt_irrefl _)
    · exact hi.live r hr x hx
  · intro x hx
    exact Nat.lt_succ_of_lt (hi.fresh x hx)
  · exact hi.unconnected
  · intro mappings hresult
    have hname : mappings.lookup name = none := hg mappings hresult
    refine mapped_modifyHandlers _ (hi.connected mappings hresult) ?_
    intro r _ k hk observers heq
    have hne : r.name ≠ name := by
      rintro rfl
      cases hname.symm.trans hk
    rw [if_neg hne]
    exact heq

theorem inv_unsubscribe {s : Routes} {subscriber : Nat} (hi : Inv s)
    (hlt : subscriber < s.subscribers) : Inv (s.unsubscribe subscriber) := by
  constructor
  · intro r' hr' x hx
    obtain ⟨r, hr, rfl⟩ := List.mem_map.mp hr'
    exact hi.filter_eq r hr x (List.mem_filter.mp hx).1
  · intro r' hr' x hx hmem
    obtain ⟨r, hr, rfl⟩ := List.mem_map.mp hr'
    obtain ⟨hx, hne⟩ := List.mem_filter.mp hx
    rcases List.mem_cons.mp hmem with heq | hmem
    · simp [heq] at hne
    · exact hi.live r hr x hx hmem
  · intro x hx
    rcases List.mem_cons.mp hx with rfl | hx
    · exact hlt
    · exact hi.fresh x hx
  · exact hi.unconnected
  · intro mappings hresult
    refine mapped_modifyHandlers _ (hi.connected mappings hresult) ?_
    intro r _ k _ observers heq
    rw [← heq, List.filter_filter]
    refine List.filter_congr fun x _ => ?_
    by_cases hx : x.subscriber = subscriber <;> simp [hx]

theorem inv_complete {s : Routes} {mappings : RouteMappings} (hi : Inv s)
    (hg : Meets s (.completeConnectionInitialization mappings)) :
    Inv (s.completeConnectionInitialization mappings) := by
  obtain ⟨hall, hnodup, hbefore⟩ := hg
  constructor
  · intro r' hr' x hx
    obtain ⟨r, hr, rfl⟩ := List.mem_map.mp hr'
    exact hi.filter_eq r hr x hx
  · intro r' hr' x hx
    obtain ⟨r, hr, rfl⟩ := List.mem_map.mp hr'
    exact hi.live r hr x hx
  · exact hi.fresh
  · intro hnone
    cases hnone
  · intro mappings' hresult
    cases hresult
    have mapped : ∀ r ∈ s.localRoutes,
        mappings.lookup r.name = some (mappedHandle mappings r.name) := by
      intro r hr
      obtain ⟨k, hk⟩ := Option.isSome_iff_exists.mp (hall r hr)
      rw [mappedHandle_of_some hk]
      exact hk
    have handles : ((s.localRoutes.map (setHandle mappings)).map (·.handle)).Nodup := by
      have hsome : s.localRoutes.map (fun r => mappings.lookup r.name) =
          ((s.localRoutes.map (setHandle mappings)).map (·.handle)).map some := by
        rw [List.map_map, List.map_map]
        exact List.map_congr_left mapped
      rw [hsome] at hnodup
      exact hnodup.of_map
    constructor
    · intro r' hr' k hk
      obtain ⟨r, hr, rfl⟩ := List.mem_map.mp hr'
      exact mappedHandle_of_some hk
    · intro r' hr' k hk
      refine ⟨r'.handlers, ?_, ?_⟩
      · have hhandle : r'.handle = k := by
          obtain ⟨r, hr, rfl⟩ := List.mem_map.mp hr'
          exact mappedHandle_of_some hk
        rw [← hhandle]
        exact foldl_storeHandlers_of_mem hr'
          (fun r'' hr'' heq => List.inj_on_of_nodup_map handles hr'' hr' heq) _
      · refine List.filter_eq_self.mpr fun x hx => ?_
        obtain ⟨r, hr, rfl⟩ := List.mem_map.mp hr'
        have hlive : x.subscriber ∉ s.unsubscribed := hi.live r hr x hx
        simpa [completeConnectionInitialization] using hlive
    · intro r' hr' k hk
      obtain ⟨r, hr, rfl⟩ := List.mem_map.mp hr'
      have hone := filter_map_eq_singleton hnodup hr
      have hk' : mappings.lookup r.name = some k := hk
      simp only [completeConnectionInitialization, List.filter_map, Function.comp_def]
      rw [hk'] at hone
      simp only [setHandle, hone, List.map_cons, List.map_nil]
    · intro r' hr' hk
      obtain ⟨r, hr, rfl⟩ := List.mem_map.mp hr'
      have hk' : mappings.lookup r.name = none := hk
      cases hk'.symm.trans (mapped r hr)
    · intro k observers hk
      rcases foldl_storeHandlers_some hk with ⟨r', hr', hhandle⟩ | hold
      · obtain ⟨r, hr, rfl⟩ := List.mem_map.mp hr'
        refine ⟨_, hr', ?_⟩
        rw [← hhandle]
        exact mapped r hr
      · cases hresult : s.connectionResult with
        | none =>
          rw [hi.unconnected hresult] at hold
          cases hold
        | some before =>
          obtain ⟨r, hr, hmap⟩ := (hi.connected before hresult).key k observers hold
          obtain ⟨r', hr', heq⟩ := hbefore before hresult r hr (by rw [hmap]; rfl)
          exact ⟨_, List.mem_map_of_mem hr', heq.trans hmap⟩

theorem inv_step (s : Routes) (a : Action) (s' : Routes) (hi : Inv s) (hg : Meets s a)
    (h : step s a = some s') : Inv s' := by
  cases a with
  | onMessage name filter metadata arrange => exact inv_onMessage hi hg h
  | subscribe name =>
    simp only [step] at h
    split at h
    · cases h
      exact inv_subscribe hi hg
    · cases h
  | unsubscribe subscriber =>
    simp only [step] at h
    split at h
    · next hlt =>
      cases h
      exact inv_unsubscribe hi hlt
    · cases h
  | completeConnectionInitialization mappings =>
    cases h
    exact inv_complete hi hg
  | setConnectionState state =>
    cases h
    exact ⟨hi.filter_eq, hi.live, hi.fresh, hi.unconnected, fun mappings hresult =>
      let hm := hi.connected mappings hresult
      ⟨hm.handle_eq, hm.stored, hm.alone, hm.unmapped, hm.key⟩⟩
  | setConnectedPeers sessionIds =>
    cases h
    exact ⟨hi.filter_eq, hi.live, hi.fresh, hi.unconnected, fun mappings hresult =>
      let hm := hi.connected mappings hresult
      ⟨hm.handle_eq, hm.stored, hm.alone, hm.unmapped, hm.key⟩⟩

theorem inv_initial (hostId : UInt64) : Inv (initial hostId) where
  filter_eq _ hr := nomatch hr
  live _ hr := nomatch hr
  fresh _ hx := nomatch hx
  unconnected _ := rfl
  connected _ h := nomatch h

/-! ### The dispatch -/

/-- The two tests of `handleMessage` on the filter of the route agree with the handlers' own. -/
theorem dispatch_route {s : Routes} {m : Message} {route : Route} {observers : List Handler}
    (hobs : observers.filter (fun h => !s.unsubscribed.contains h.subscriber) = route.handlers)
    (hfilter : ∀ h ∈ route.handlers, h.filter = route.filter) :
    (if m.connectionId = s.hostId ∧ route.filter.includes .host = false then some []
      else if m.connectionId ≠ s.hostId ∧ route.filter.includes .peer = false then some []
      else some (observers.filter (s.handlerRuns m))) =
    some (if s.admits m route.filter then route.handlers else []) := by
  have hruns : observers.filter (s.handlerRuns m) =
      route.handlers.filter fun _ => s.admits m route.filter := by
    have hsplit : observers.filter (s.handlerRuns m) =
        route.handlers.filter fun h => s.admits m h.filter := by
      rw [← hobs, List.filter_filter]
      refine List.filter_congr fun x _ => ?_
      unfold handlerRuns
      rw [Bool.and_comm]
    rw [hsplit]
    refine List.filter_congr fun x hx => ?_
    rw [hfilter x hx]
  rw [hruns]
  cases hadmits : s.admits m route.filter with
  | true =>
    unfold admits at hadmits
    split at hadmits
    · next hhost => simp [hhost, hadmits]
    · next hpeer =>
      have hpeer' := (Bool.and_eq_true _ _ ▸ hadmits).2
      simp [hpeer, hpeer']
  | false => simp

theorem dispatch_of_inv {s : Routes} (hi : Inv s) (m : Message) :
    s.handleMessage m = some (s.expected m) := by
  unfold handleMessage expected
  cases hresult : s.connectionResult with
  | none =>
    rw [hi.unconnected hresult]
    rfl
  | some mappings =>
    have hm := hi.connected mappings hresult
    cases hlookup : s.handlers.lookup m.routeHandle with
    | none =>
      have hempty : s.localRoutes.filter (fun r =>
          mappings.lookup r.name == some m.routeHandle && s.admits m r.filter) = [] := by
        rw [List.filter_eq_nil_iff]
        intro r hr hboth
        have hk := eq_of_beq (Bool.and_eq_true _ _ ▸ hboth).1
        obtain ⟨observers, hstored, _⟩ := hm.stored r hr _ hk
        cases hlookup.symm.trans hstored
      simp only [hempty, List.flatMap_nil]
    | some observers =>
      obtain ⟨route, hroute, hk⟩ := hm.key _ observers hlookup
      obtain ⟨observers', hstored, hobs⟩ := hm.stored route hroute _ hk
      cases hlookup.symm.trans hstored
      have halone := hm.alone route hroute _ hk
      have hfind : s.localRoutes.find? (·.handle == m.routeHandle) = some route := by
        cases hf : s.localRoutes.find? (·.handle == m.routeHandle) with
        | none =>
          rw [List.find?_eq_none] at hf
          exact absurd (by simpa using hm.handle_eq route hroute _ hk) (hf route hroute)
        | some r =>
          have hr := List.mem_of_find?_eq_some hf
          have hhandle : r.handle = m.routeHandle := by simpa using List.find?_some hf
          cases hmap : mappings.lookup r.name with
          | none =>
            have hnone := hm.unmapped r hr hmap
            rw [hhandle, hlookup] at hnone
            cases hnone
          | some k =>
            have hk' : k = m.routeHandle := (hm.handle_eq r hr k hmap).symm.trans hhandle
            subst hk'
            have hmem : r ∈ s.localRoutes.filter
                (fun r' => mappings.lookup r'.name == some m.routeHandle) :=
              List.mem_filter.mpr ⟨hr, by simpa using hmap⟩
            rw [halone] at hmem
            rw [List.mem_singleton.mp hmem]
      simp only [hfind]
      rw [dispatch_route hobs (hi.filter_eq route hroute)]
      have hfilter : s.localRoutes.filter (fun r =>
          mappings.lookup r.name == some m.routeHandle && s.admits m r.filter) =
          [route].filter fun r => s.admits m r.filter := by
        rw [← halone, List.filter_filter]
        refine List.filter_congr fun r _ => ?_
        rw [Bool.and_comm]
      rw [hfilter]
      cases hadmits : s.admits m route.filter <;> simp [hadmits]

end RoutesLemmas

open RoutesLemmas

/-! ## Main results -/

/-- Over every run whose steps meet the condition, a message runs the handlers of the route that
the server mapped to its handle, if its filter admits the sender, and no others. -/
theorem dispatch_of_run {hostId : UInt64} {s : Routes}
    (h : Lts.Reachable step Meets (initial hostId) s) (m : Message) :
    s.handleMessage m = some (s.expected m) :=
  dispatch_of_inv (h.invariant (inv_initial hostId) inv_step) m

/-- A route that the server did not map gets the handle 0. When no other route has it, the
messages of that handle run its handlers. -/
theorem unmapped_route_receives {s : Routes} (hi : Inv s) {mappings : RouteMappings} {r : Route}
    (hr : r ∈ s.localRoutes) (hunmapped : mappings.lookup r.name = none)
    (hother : ∀ r' ∈ s.localRoutes, mappedHandle mappings r'.name = 0 → r' = r) {m : Message}
    (hm : m.routeHandle = 0) (hadmits : s.admits m r.filter = true) :
    (s.completeConnectionInitialization mappings).handleMessage m = some r.handlers := by
  have hzero : mappedHandle mappings r.name = 0 := by
    unfold mappedHandle
    rw [hunmapped, Option.getD_none]
  have hmem : setHandle mappings r ∈ s.localRoutes.map (setHandle mappings) :=
    List.mem_map_of_mem hr
  have honly : ∀ r' ∈ s.localRoutes.map (setHandle mappings), r'.handle = 0 →
      r' = setHandle mappings r := by
    intro r' hr' hhandle
    obtain ⟨r'', hr'', rfl⟩ := List.mem_map.mp hr'
    rw [hother r'' hr'' hhandle]
  have hstored : (s.completeConnectionInitialization mappings).handlers.lookup m.routeHandle =
      some r.handlers := by
    have hlast := foldl_storeHandlers_of_mem hmem
      (fun r' hr' heq => honly r' hr' (heq.trans hzero)) s.handlers
    rwa [show (setHandle mappings r).handle = m.routeHandle from hzero.trans hm.symm] at hlast
  have hfind : (s.completeConnectionInitialization mappings).localRoutes.find?
      (·.handle == m.routeHandle) = some (setHandle mappings r) := by
    rw [hm]
    cases hf : (s.completeConnectionInitialization mappings).localRoutes.find?
        (·.handle == 0) with
    | none =>
      rw [List.find?_eq_none] at hf
      exact absurd (beq_iff_eq.mpr hzero) (hf _ hmem)
    | some r' =>
      rw [honly r' (List.mem_of_find?_eq_some hf) (by simpa using List.find?_some hf)]
  have hlive : r.handlers.filter (fun h =>
      !(s.completeConnectionInitialization mappings).unsubscribed.contains h.subscriber) =
      (setHandle mappings r).handlers := by
    refine List.filter_eq_self.mpr fun x hx => ?_
    have hlive : x.subscriber ∉ s.unsubscribed := hi.live r hr x hx
    simpa [completeConnectionInitialization] using hlive
  unfold handleMessage
  simp only [hstored, hfind]
  rw [dispatch_route hlive (hi.filter_eq r hr)]
  have hadmits' : (s.completeConnectionInitialization mappings).admits m
      (setHandle mappings r).filter = true := hadmits
  rw [if_pos hadmits']
  rfl

/-- The route "early" is there before the connection is requested. -/
def connectEarly : List Action :=
  [.onMessage ['e', 'a', 'r', 'l', 'y'] .host [] id, .subscribe ['e', 'a', 'r', 'l', 'y'],
    .setConnectionState .connecting]

/-- The route "late" is added after the request was sent. -/
def addLate : List Action :=
  [.onMessage ['l', 'a', 't', 'e'] .host [] id, .subscribe ['l', 'a', 't', 'e']]

/-- The server maps the route that was in the request. -/
def completeEarly : List Action :=
  [.completeConnectionInitialization ((∅ : RouteMappings).insert ['e', 'a', 'r', 'l', 'y'] 1),
    .setConnectionState .connected]

theorem dispatch_of_run_early : ∃ s, Lts.Reachable step Meets (initial 7) s ∧
    s.handleMessage ⟨7, [], 1⟩ = some [⟨.host, 0⟩] := by
  obtain ⟨s, hs, hp⟩ := Lts.Reachable.of_exec step Meets (initial 7)
    (connectEarly ++ completeEarly)
    (fun s => decide (s.expected ⟨7, [], 1⟩ = [⟨.host, 0⟩])) (by decide)
  exact ⟨s, hs, by rw [dispatch_of_run hs, of_decide_eq_true hp]⟩

/-- The handlers of a route that the server never mapped run for a message of handle 0. -/
theorem late_route_receives :
    ¬ ∀ s, Lts.Reachable step Lts.anyStep (initial 7) s →
      ∀ m, s.handleMessage m = some (s.expected m) := by
  intro hclaim
  obtain ⟨s, hs, hp⟩ := Lts.Reachable.of_exec step Lts.anyStep (initial 7)
    (connectEarly ++ addLate ++ completeEarly)
    (fun s => decide (s.expected ⟨7, [], 0⟩ = [] ∧
      s.handleMessage ⟨7, [], 0⟩ = some [⟨.host, 1⟩])) (by decide)
  obtain ⟨hexpected, hruns⟩ := of_decide_eq_true hp
  have hboth := hclaim s hs ⟨7, [], 0⟩
  rw [hexpected, hruns] at hboth
  cases hboth

end Routes
end Stormancer.Scene
