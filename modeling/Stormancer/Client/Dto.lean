import Stormancer.Lib.MsgpackCodec
import Stormancer.Scene.Handles
import Stormancer.Streams.Serializer

/-!
# The messages of the connections

The values that clients and servers exchange while they connect, each with its codec: the DTOs of
the scenes and of the P2P sessions, which are arrays of their members (`MSGPACK_DEFINE`) or maps from
the names of their members (`MSGPACK_DEFINE_MAP`). `Serializer` reads them with `msgpack::unpack` and
the conversion of their type.

A text is made of bytes. The order in which a map iterates over its entries is the one of its list.
`P2PSession` is without its subscription, which is not sent.

Results:
1. `messages_round_trip`: the values of a message are read back, whatever stands around them, and
   the stream is moved to what follows.
2. `deserialize_truncated`: a message whose last bytes are missing is not read.
3. `deserialize_of_pairs`: a record from a map in any order, with unknown keys and missing ones.
4. `deserialize_of_items`: a record from an array of another version of the record.
-/

namespace Stormancer.Dto

open Msgpack Serializer Streams
open Scene (RouteDto P2PConnectToSceneMessage)

/-! ## Data -/

/-- Required parameters to connect to a scene. -/
structure ConnectToSceneMessage where
  token : Str
  routes : List RouteDto
  sceneMetadata : List (Str × Str)
  connectionMetadata : List (Str × Str)
deriving DecidableEq

/-- Result of a connection attempt. -/
structure ConnectionResult where
  sceneHandle : UInt8
  routeMappings : List (Str × UInt16)
deriving DecidableEq

structure SceneInfosRequestDto where
  token : Str
  metadata : List (Str × Str)
deriving DecidableEq

structure SceneInfosDto where
  sceneId : Str
  metadata : List (Str × Str)
  routes : List RouteDto
  selectedSerializer : Str
deriving DecidableEq

structure P2PDisconnectFromSceneMessage where
  sceneId : Str
  reason : Str
deriving DecidableEq

structure P2PSession where
  sessionId : List UInt8
  remotePeerId : UInt64
  sceneId : Str
  remoteSessionId : Str
  owningSessionId : Str
  /-- The value of the enumeration. -/
  status : Int32
deriving DecidableEq

structure EndpointCandidate where
  address : Str
  type : Int32
deriving DecidableEq

structure ConnectivityCandidate where
  listeningPeer : UInt64
  clientPeer : UInt64
  listeningEndpointCandidate : EndpointCandidate
  clientEndpointCandidate : EndpointCandidate
  p2pSessionId : List UInt8
  id : List UInt8
  ping : Int32
  listeningPeerSessionId : List UInt8
  clientPeerSessionId : List UInt8
deriving DecidableEq

structure OpenRelayParameters where
  p2pSessionId : List UInt8
  remotePeerId : UInt64
  remotePeerAddress : Str
deriving DecidableEq

structure OpenTunnelResult where
  useTunnel : Bool
  endpoint : Str
  handle : UInt8
deriving DecidableEq

/-- Connection informations to send to the server. -/
structure ConnectionData where
  accountId : Str
  application : Str
  contentType : Str
  deploymentId : Str
  endpoints : Option (List (Str × Str))
  expiration : Int64
  issued : Int64
  routing : Str
  sceneId : Str
  userData : Str
  version : Int32
deriving DecidableEq

/-! ## Codecs -/

/-- The bytes of a text. -/
def dataOf (s : Str) : List UInt8 := s.map fun c => UInt8.ofNat c.toNat

def textOf (data : List UInt8) : Str := data.map fun b => Char.ofNat b.toNat

def textCodec : Codec Str := stringCodec.via dataOf textOf

def byteCodec : Codec UInt8 := (unsignedCodec 1).via UInt8.toNat UInt8.ofNat

def uint16Codec : Codec UInt16 := (unsignedCodec 2).via UInt16.toNat UInt16.ofNat

def uint64Codec : Codec UInt64 := (unsignedCodec 8).via UInt64.toNat UInt64.ofNat

def int32Codec : Codec Int32 := (signedCodec 4).via Int32.toInt Int32.ofInt

def int64Codec : Codec Int64 := (signedCodec 8).via Int64.toInt Int64.ofInt

def metadataCodec : Codec (List (Str × Str)) := unorderedMapCodec textCodec textCodec [] []

/-- A member with its name in the source. -/
def member {ρ α : Type} (name : String) (c : Codec α) (get : ρ → α) (set : ρ → α → ρ) : Member ρ :=
  .of (dataOf name.toList) c get set

def routeDtoFields : List (Member RouteDto) :=
  [member "Name" textCodec (·.name) fun r v => { r with name := v },
    member "Handle" uint16Codec (·.handle) fun r v => { r with handle := v },
    member "Metadata" metadataCodec (·.metadata) fun r v => { r with metadata := v }]

def routesCodec : Codec (List RouteDto) := vectorCodec (defineMap routeDtoFields) ⟨0, [], []⟩

def connectToSceneFields : List (Member ConnectToSceneMessage) :=
  [member "Token" textCodec (·.token) fun r v => { r with token := v },
    member "Routes" routesCodec (·.routes) fun r v => { r with routes := v },
    member "SceneMetadata" metadataCodec (·.sceneMetadata) fun r v => { r with sceneMetadata := v },
    member "ConnectionMetadata" metadataCodec (·.connectionMetadata) fun r v =>
      { r with connectionMetadata := v }]

def connectionResultFields : List (Member ConnectionResult) :=
  [member "SceneHandle" byteCodec (·.sceneHandle) fun r v => { r with sceneHandle := v },
    member "RouteMappings" (unorderedMapCodec textCodec uint16Codec [] 0) (·.routeMappings)
      fun r v => { r with routeMappings := v }]

def sceneInfosRequestFields : List (Member SceneInfosRequestDto) :=
  [member "Token" textCodec (·.token) fun r v => { r with token := v },
    member "Metadata" metadataCodec (·.metadata) fun r v => { r with metadata := v }]

def sceneInfosFields : List (Member SceneInfosDto) :=
  [member "SceneId" textCodec (·.sceneId) fun r v => { r with sceneId := v },
    member "Metadata" metadataCodec (·.metadata) fun r v => { r with metadata := v },
    member "Routes" routesCodec (·.routes) fun r v => { r with routes := v },
    member "SelectedSerializer" textCodec (·.selectedSerializer) fun r v =>
      { r with selectedSerializer := v }]

def p2pSessionFields : List (Member P2PSession) :=
  [member "SessionId" binaryCodec (·.sessionId) fun r v => { r with sessionId := v },
    member "RemotePeerId" uint64Codec (·.remotePeerId) fun r v => { r with remotePeerId := v },
    member "SceneId" textCodec (·.sceneId) fun r v => { r with sceneId := v },
    member "RemoteSessionId" textCodec (·.remoteSessionId) fun r v =>
      { r with remoteSessionId := v },
    member "OwningSessionId" textCodec (·.owningSessionId) fun r v =>
      { r with owningSessionId := v },
    member "Status" int32Codec (·.status) fun r v => { r with status := v }]

def connectionDataFields : List (Member ConnectionData) :=
  [member "AccountId" textCodec (·.accountId) fun r v => { r with accountId := v },
    member "Application" textCodec (·.application) fun r v => { r with application := v },
    member "ContentType" textCodec (·.contentType) fun r v => { r with contentType := v },
    member "DeploymentId" textCodec (·.deploymentId) fun r v => { r with deploymentId := v },
    member "Endpoints" (sharedCodec metadataCodec []) (·.endpoints) fun r v =>
      { r with endpoints := v },
    member "Expiration" int64Codec (·.expiration) fun r v => { r with expiration := v },
    member "Issued" int64Codec (·.issued) fun r v => { r with issued := v },
    member "Routing" textCodec (·.routing) fun r v => { r with routing := v },
    member "SceneId" textCodec (·.sceneId) fun r v => { r with sceneId := v },
    member "UserData" textCodec (·.userData) fun r v => { r with userData := v },
    member "Version" int32Codec (·.version) fun r v => { r with version := v }]

def p2pConnectToSceneFields : List (Member P2PConnectToSceneMessage) :=
  [member "sceneId" textCodec (·.sceneId) fun r v => { r with sceneId := v },
    member "sceneHandle" byteCodec (·.sceneHandle) fun r v => { r with sceneHandle := v },
    member "routes" routesCodec (·.routes) fun r v => { r with routes := v },
    member "sceneMetadata" metadataCodec (·.sceneMetadata) fun r v => { r with sceneMetadata := v },
    member "connectionMetadata" metadataCodec (·.connectionMetadata) fun r v =>
      { r with connectionMetadata := v }]

def p2pDisconnectFromSceneFields : List (Member P2PDisconnectFromSceneMessage) :=
  [member "sceneId" textCodec (·.sceneId) fun r v => { r with sceneId := v },
    member "reason" textCodec (·.reason) fun r v => { r with reason := v }]

def endpointCandidateFields : List (Member EndpointCandidate) :=
  [member "address" textCodec (·.address) fun r v => { r with address := v },
    member "_type" int32Codec (·.type) fun r v => { r with type := v }]

def connectivityCandidateFields : List (Member ConnectivityCandidate) :=
  [member "listeningPeer" uint64Codec (·.listeningPeer) fun r v => { r with listeningPeer := v },
    member "clientPeer" uint64Codec (·.clientPeer) fun r v => { r with clientPeer := v },
    member "listeningEndpointCandidate" (defineArray endpointCandidateFields)
      (·.listeningEndpointCandidate) fun r v => { r with listeningEndpointCandidate := v },
    member "clientEndpointCandidate" (defineArray endpointCandidateFields)
      (·.clientEndpointCandidate) fun r v => { r with clientEndpointCandidate := v },
    member "p2pSessionId" binaryCodec (·.p2pSessionId) fun r v => { r with p2pSessionId := v },
    member "id" binaryCodec (·.id) fun r v => { r with id := v },
    member "ping" int32Codec (·.ping) fun r v => { r with ping := v },
    member "listeningPeerSessionId" binaryCodec (·.listeningPeerSessionId) fun r v =>
      { r with listeningPeerSessionId := v },
    member "clientPeerSessionId" binaryCodec (·.clientPeerSessionId) fun r v =>
      { r with clientPeerSessionId := v }]

def openRelayFields : List (Member OpenRelayParameters) :=
  [member "p2pSessionId" binaryCodec (·.p2pSessionId) fun r v => { r with p2pSessionId := v },
    member "remotePeerId" uint64Codec (·.remotePeerId) fun r v => { r with remotePeerId := v },
    member "remotePeerAddress" textCodec (·.remotePeerAddress) fun r v =>
      { r with remotePeerAddress := v }]

def openTunnelFields : List (Member OpenTunnelResult) :=
  [member "useTunnel" boolCodec (·.useTunnel) fun r v => { r with useTunnel := v },
    member "endpoint" textCodec (·.endpoint) fun r v => { r with endpoint := v },
    member "handle" byteCodec (·.handle) fun r v => { r with handle := v }]

/-! ### Types -/

/-- The records that are maps. -/
inductive MapTy
  | routeDto
  | connectToScene
  | connectionResult
  | sceneInfosRequest
  | sceneInfos
  | p2pSession
  | connectionData
deriving DecidableEq

/-- The records that are arrays. -/
inductive ArrayTy
  | p2pConnectToScene
  | p2pDisconnectFromScene
  | endpointCandidate
  | connectivityCandidate
  | openRelayParameters
  | openTunnelResult
deriving DecidableEq

/-- The types of the values. -/
inductive Ty
  | boolean
  | byte
  | uint64
  | int32
  | text
  | binary
  | texts
  | map (t : MapTy)
  | array (t : ArrayTy)
deriving DecidableEq

abbrev MapTy.Val : MapTy → Type
  | routeDto => RouteDto
  | connectToScene => ConnectToSceneMessage
  | connectionResult => ConnectionResult
  | sceneInfosRequest => SceneInfosRequestDto
  | sceneInfos => SceneInfosDto
  | p2pSession => P2PSession
  | connectionData => ConnectionData

abbrev ArrayTy.Val : ArrayTy → Type
  | p2pConnectToScene => P2PConnectToSceneMessage
  | p2pDisconnectFromScene => P2PDisconnectFromSceneMessage
  | endpointCandidate => EndpointCandidate
  | connectivityCandidate => ConnectivityCandidate
  | openRelayParameters => OpenRelayParameters
  | openTunnelResult => OpenTunnelResult

abbrev Ty.Val : Ty → Type
  | boolean => Bool
  | byte => UInt8
  | uint64 => UInt64
  | int32 => Int32
  | text => Str
  | binary => List UInt8
  | texts => List Str
  | map t => t.Val
  | array t => t.Val

def MapTy.fields : (t : MapTy) → List (Member t.Val)
  | routeDto => routeDtoFields
  | connectToScene => connectToSceneFields
  | connectionResult => connectionResultFields
  | sceneInfosRequest => sceneInfosRequestFields
  | sceneInfos => sceneInfosFields
  | p2pSession => p2pSessionFields
  | connectionData => connectionDataFields

def ArrayTy.fields : (t : ArrayTy) → List (Member t.Val)
  | p2pConnectToScene => p2pConnectToSceneFields
  | p2pDisconnectFromScene => p2pDisconnectFromSceneFields
  | endpointCandidate => endpointCandidateFields
  | connectivityCandidate => connectivityCandidateFields
  | openRelayParameters => openRelayFields
  | openTunnelResult => openTunnelFields

def Ty.codec : (t : Ty) → Codec t.Val
  | boolean => boolCodec
  | byte => byteCodec
  | uint64 => uint64Codec
  | int32 => int32Codec
  | text => textCodec
  | binary => binaryCodec
  | texts => vectorCodec textCodec []
  | map t => defineMap t.fields
  | array t => defineArray t.fields

/-- What `Serializer` reads with. -/
def unpacker : Unpacker Ty Ty.Val Object Error where
  unpack := Msgpack.unpack
  convert t := t.codec.convert

/-- What `Serializer::serialize` writes for a value. -/
def serialized (v : Var Ty.Val) : List UInt8 := v.1.codec.pack v.2

/-! ## The property -/

/-- The size of a container fits in 32 bits, as the packer demands, and a text is made of bytes. -/
structure IsText (s : Str) : Prop where
  bytes : ∀ c ∈ s, c.toNat < 256
  size : s.length < 0x100000000

def IsBinary (data : List UInt8) : Prop := data.length < 0x100000000

/-- The entries of a map. -/
structure IsMap {α : Type} (Value : α → Prop) (entries : List (Str × α)) : Prop where
  size : entries.length < 0x100000000
  keys : ∀ e ∈ entries, IsText e.1
  values : ∀ e ∈ entries, Value e.2
  distinct : (entries.map Prod.fst).Nodup

abbrev IsMetadata (entries : List (Str × Str)) : Prop := IsMap IsText entries

def IsRoute (r : RouteDto) : Prop := IsText r.name ∧ IsMetadata r.metadata

def AreRoutes (rs : List RouteDto) : Prop := rs.length < 0x100000000 ∧ ∀ r ∈ rs, IsRoute r

def MapTy.WellFormed : (t : MapTy) → t.Val → Prop
  | routeDto, r => IsRoute r
  | connectToScene, r => IsText r.token ∧ AreRoutes r.routes ∧ IsMetadata r.sceneMetadata ∧
      IsMetadata r.connectionMetadata
  | connectionResult, r => IsMap (fun _ => True) r.routeMappings
  | sceneInfosRequest, r => IsText r.token ∧ IsMetadata r.metadata
  | sceneInfos, r => IsText r.sceneId ∧ IsMetadata r.metadata ∧ AreRoutes r.routes ∧
      IsText r.selectedSerializer
  | p2pSession, r => IsBinary r.sessionId ∧ IsText r.sceneId ∧ IsText r.remoteSessionId ∧
      IsText r.owningSessionId
  | connectionData, r => IsText r.accountId ∧ IsText r.application ∧ IsText r.contentType ∧
      IsText r.deploymentId ∧ (∀ endpoints ∈ r.endpoints, IsMetadata endpoints) ∧
      IsText r.routing ∧ IsText r.sceneId ∧ IsText r.userData

def ArrayTy.WellFormed : (t : ArrayTy) → t.Val → Prop
  | p2pConnectToScene, r => IsText r.sceneId ∧ AreRoutes r.routes ∧ IsMetadata r.sceneMetadata ∧
      IsMetadata r.connectionMetadata
  | p2pDisconnectFromScene, r => IsText r.sceneId ∧ IsText r.reason
  | endpointCandidate, r => IsText r.address
  | connectivityCandidate, r => IsText r.listeningEndpointCandidate.address ∧
      IsText r.clientEndpointCandidate.address ∧ IsBinary r.p2pSessionId ∧ IsBinary r.id ∧
      IsBinary r.listeningPeerSessionId ∧ IsBinary r.clientPeerSessionId
  | openRelayParameters, r => IsBinary r.p2pSessionId ∧ IsText r.remotePeerAddress
  | openTunnelResult, r => IsText r.endpoint

def Ty.WellFormed : (t : Ty) → t.Val → Prop
  | boolean, _ | byte, _ | uint64, _ | int32, _ => True
  | text, s => IsText s
  | binary, data => IsBinary data
  | texts, ss => ss.length < 0x100000000 ∧ ∀ s ∈ ss, IsText s
  | map t, r => t.WellFormed r
  | array t, r => t.WellFormed r

namespace DtoLemmas

/-! ### Single values -/

theorem textOf_dataOf {s : Str} (h : ∀ c ∈ s, c.toNat < 256) : textOf (dataOf s) = s := by
  unfold textOf dataOf
  rw [List.map_map]
  refine (List.map_congr_left fun c hc => ?_).trans (List.map_id s)
  rw [Function.comp_apply, UInt8.toNat_ofNat', Nat.mod_eq_of_lt (h c hc), Char.ofNat_toNat]
  rfl

theorem carries_text {s : Str} (h : IsText s) : ∃ o, textCodec.Carries s o :=
  ⟨_, (carries_string (by simpa [dataOf] using h.size)).via (textOf_dataOf h.bytes)⟩

theorem carries_byte (b : UInt8) : ∃ o, byteCodec.Carries b o :=
  ⟨_, (carries_unsigned (by decide) b.toNat_lt).via UInt8.ofNat_toNat⟩

theorem carries_uint16 (n : UInt16) : ∃ o, uint16Codec.Carries n o :=
  ⟨_, (carries_unsigned (by decide) n.toNat_lt).via UInt16.ofNat_toNat⟩

theorem carries_uint64 (n : UInt64) : ∃ o, uint64Codec.Carries n o :=
  ⟨_, (carries_unsigned (by decide) n.toNat_lt).via UInt64.ofNat_toNat⟩

theorem carries_int32 (n : Int32) : ∃ o, int32Codec.Carries n o := by
  have hlow := n.le_toInt
  have hhigh := n.toInt_lt
  exact ⟨_, (carries_signed (by decide) (by omega) (by omega)).via (Int32.ofInt_toInt n)⟩

theorem carries_int64 (n : Int64) : ∃ o, int64Codec.Carries n o := by
  have hlow := n.le_toInt
  have hhigh := n.toInt_lt
  exact ⟨_, (carries_signed (by decide) (by omega) (by omega)).via (Int64.ofInt_toInt n)⟩

theorem carries_metadata {entries : List (Str × Str)} (h : IsMetadata entries) :
    ∃ pairs, metadataCodec.Carries entries (.map pairs) :=
  exists_carries_unorderedMap h.size (fun e he => carries_text (h.keys e he))
    (fun e he => carries_text (h.values e he)) h.distinct

theorem carries_of {ρ α : Type} {name : String} {c : Codec α} {get : ρ → α} {set : ρ → α → ρ}
    {r : ρ} (h : ∃ o, c.Carries (get r) o) : ∃ o, (member name c get set).Carries r o := by
  obtain ⟨o, ho⟩ := h
  exact ⟨o, carries_member ho⟩

/-! ### Records -/

theorem carries_entries {entries : List (Str × Str)} (h : IsMetadata entries) :
    ∃ o, metadataCodec.Carries entries o := by
  obtain ⟨pairs, hpairs⟩ := carries_metadata h
  exact ⟨_, hpairs⟩

theorem carries_endpoints {endpoints : Option (List (Str × Str))}
    (h : ∀ entries ∈ endpoints, IsMetadata entries) :
    ∃ o, (sharedCodec metadataCodec []).Carries endpoints o := by
  cases endpoints with
  | none => exact ⟨_, carries_shared_none _ _⟩
  | some entries =>
    obtain ⟨pairs, hpairs⟩ := carries_metadata (h entries rfl)
    exact ⟨_, carries_shared_some hpairs (by simp) []⟩

theorem route_members {r : RouteDto} (h : IsRoute r) :
    ∀ f ∈ routeDtoFields, ∃ o, f.Carries r o := by
  simp only [routeDtoFields, List.forall_mem_cons, List.not_mem_nil, false_implies, implies_true,
    and_true]
  exact ⟨carries_of (carries_text h.1), carries_of (carries_uint16 _),
    carries_of (carries_entries h.2)⟩

theorem carries_routes {rs : List RouteDto} (h : AreRoutes rs) : ∃ o, routesCodec.Carries rs o :=
  exists_carries_vector h.1 fun _ hr =>
    exists_carries_defineMap (by decide) (by decide) (by decide) (route_members (h.2 _ hr))
      fun _ => rfl

theorem carries_endpointCandidate {r : EndpointCandidate} (h : IsText r.address) :
    ∃ o, (defineArray endpointCandidateFields).Carries r o := by
  refine exists_carries_defineArray (by decide) ?_ fun _ => rfl
  simp only [endpointCandidateFields, List.forall_mem_cons, List.not_mem_nil, false_implies,
    implies_true, and_true]
  exact ⟨carries_of (carries_text h), carries_of (carries_int32 _)⟩

theorem map_members (t : MapTy) {r : t.Val} (h : t.WellFormed r) :
    ∀ f ∈ t.fields, ∃ o, f.Carries r o := by
  cases t with
  | routeDto => exact route_members h
  | connectToScene =>
    obtain ⟨htoken, hroutes, hscene, hconnection⟩ := h
    simp only [MapTy.fields, connectToSceneFields, List.forall_mem_cons, List.not_mem_nil,
      false_implies, implies_true, and_true]
    exact ⟨carries_of (carries_text htoken), carries_of (carries_routes hroutes),
      carries_of (carries_entries hscene), carries_of (carries_entries hconnection)⟩
  | connectionResult =>
    have hmappings : ∃ pairs, (unorderedMapCodec textCodec uint16Codec [] 0).Carries
        r.routeMappings (.map pairs) :=
      exists_carries_unorderedMap h.size (fun e he => carries_text (h.keys e he))
        (fun e _ => carries_uint16 e.2) h.distinct
    obtain ⟨pairs, hpairs⟩ := hmappings
    simp only [MapTy.fields, connectionResultFields, List.forall_mem_cons, List.not_mem_nil,
      false_implies, implies_true, and_true]
    exact ⟨carries_of (carries_byte _), carries_of ⟨_, hpairs⟩⟩
  | sceneInfosRequest =>
    simp only [MapTy.fields, sceneInfosRequestFields, List.forall_mem_cons, List.not_mem_nil,
      false_implies, implies_true, and_true]
    exact ⟨carries_of (carries_text h.1), carries_of (carries_entries h.2)⟩
  | sceneInfos =>
    obtain ⟨hid, hmetadata, hroutes, hserializer⟩ := h
    simp only [MapTy.fields, sceneInfosFields, List.forall_mem_cons, List.not_mem_nil,
      false_implies, implies_true, and_true]
    exact ⟨carries_of (carries_text hid), carries_of (carries_entries hmetadata),
      carries_of (carries_routes hroutes), carries_of (carries_text hserializer)⟩
  | p2pSession =>
    obtain ⟨hid, hscene, hremote, howning⟩ := h
    simp only [MapTy.fields, p2pSessionFields, List.forall_mem_cons, List.not_mem_nil,
      false_implies, implies_true, and_true]
    exact ⟨carries_of ⟨_, carries_binary hid⟩, carries_of (carries_uint64 _),
      carries_of (carries_text hscene), carries_of (carries_text hremote),
      carries_of (carries_text howning), carries_of (carries_int32 _)⟩
  | connectionData =>
    obtain ⟨haccount, happlication, htype, hdeployment, hendpoints, hrouting, hscene, huser⟩ := h
    simp only [MapTy.fields, connectionDataFields, List.forall_mem_cons, List.not_mem_nil,
      false_implies, implies_true, and_true]
    exact ⟨carries_of (carries_text haccount), carries_of (carries_text happlication),
      carries_of (carries_text htype), carries_of (carries_text hdeployment),
      carries_of (carries_endpoints hendpoints), carries_of (carries_int64 _),
      carries_of (carries_int64 _), carries_of (carries_text hrouting),
      carries_of (carries_text hscene), carries_of (carries_text huser),
      carries_of (carries_int32 _)⟩

theorem array_members (t : ArrayTy) {r : t.Val} (h : t.WellFormed r) :
    ∀ f ∈ t.fields, ∃ o, f.Carries r o := by
  cases t with
  | p2pConnectToScene =>
    obtain ⟨hid, hroutes, hscene, hconnection⟩ := h
    simp only [ArrayTy.fields, p2pConnectToSceneFields, List.forall_mem_cons, List.not_mem_nil,
      false_implies, implies_true, and_true]
    exact ⟨carries_of (carries_text hid), carries_of (carries_byte _),
      carries_of (carries_routes hroutes), carries_of (carries_entries hscene),
      carries_of (carries_entries hconnection)⟩
  | p2pDisconnectFromScene =>
    simp only [ArrayTy.fields, p2pDisconnectFromSceneFields, List.forall_mem_cons,
      List.not_mem_nil, false_implies, implies_true, and_true]
    exact ⟨carries_of (carries_text h.1), carries_of (carries_text h.2)⟩
  | endpointCandidate =>
    simp only [ArrayTy.fields, endpointCandidateFields, List.forall_mem_cons, List.not_mem_nil,
      false_implies, implies_true, and_true]
    exact ⟨carries_of (carries_text h), carries_of (carries_int32 _)⟩
  | connectivityCandidate =>
    obtain ⟨hlistening, hclient, hsession, hid, hlisteningId, hclientId⟩ := h
    simp only [ArrayTy.fields, connectivityCandidateFields, List.forall_mem_cons,
      List.not_mem_nil, false_implies, implies_true, and_true]
    exact ⟨carries_of (carries_uint64 _), carries_of (carries_uint64 _),
      carries_of (carries_endpointCandidate hlistening),
      carries_of (carries_endpointCandidate hclient), carries_of ⟨_, carries_binary hsession⟩,
      carries_of ⟨_, carries_binary hid⟩, carries_of (carries_int32 _),
      carries_of ⟨_, carries_binary hlisteningId⟩, carries_of ⟨_, carries_binary hclientId⟩⟩
  | openRelayParameters =>
    simp only [ArrayTy.fields, openRelayFields, List.forall_mem_cons, List.not_mem_nil,
      false_implies, implies_true, and_true]
    exact ⟨carries_of ⟨_, carries_binary h.1⟩, carries_of (carries_uint64 _),
      carries_of (carries_text h.2)⟩
  | openTunnelResult =>
    simp only [ArrayTy.fields, openTunnelFields, List.forall_mem_cons, List.not_mem_nil,
      false_implies, implies_true, and_true]
    exact ⟨carries_of ⟨_, carries_bool _⟩, carries_of (carries_text h),
      carries_of (carries_byte _)⟩

theorem map_copyAll (t : MapTy) (r held : t.Val) : copyAll t.fields r held = r := by
  cases t <;> cases r <;> cases held <;> rfl

theorem array_copyAll (t : ArrayTy) (r held : t.Val) : copyAll t.fields r held = r := by
  cases t <;> cases r <;> cases held <;> rfl

theorem map_names (t : MapTy) : t.fields.length < 0x100000000 ∧
    (∀ f ∈ t.fields, f.name.length < 0x100000000) ∧ (t.fields.map (·.name)).Nodup := by
  cases t <;> exact ⟨by decide, by decide, by decide⟩

theorem array_length (t : ArrayTy) : t.fields.length < 0x100000000 := by
  cases t <;> decide

/-- Every well-formed value is converted back from its object. -/
theorem exists_carries (t : Ty) {v : t.Val} (h : t.WellFormed v) : ∃ o, t.codec.Carries v o := by
  cases t with
  | boolean => exact ⟨_, carries_bool v⟩
  | byte => exact carries_byte v
  | uint64 => exact carries_uint64 v
  | int32 => exact carries_int32 v
  | text => exact carries_text h
  | binary => exact ⟨_, carries_binary h⟩
  | texts => exact exists_carries_vector h.1 fun s hs => carries_text (h.2 s hs)
  | map t =>
    obtain ⟨hlength, hsizes, hnames⟩ := map_names t
    exact exists_carries_defineMap hlength hsizes hnames (map_members t h) (map_copyAll t v)
  | array t =>
    exact exists_carries_defineArray (array_length t) (array_members t h) (array_copyAll t v)

/-! ### The serializer -/

open SerializerLemmas IByteStream.IByteStreamLemmas IByteStream.PositionsLemmas

theorem decodes {v : Var Ty.Val} (h : v.1.WellFormed v.2) : DecodesValue unpacker serialized v := by
  obtain ⟨o, ho⟩ := exists_carries v.1 h
  refine ⟨?_, fun rest => ⟨o, unpack_of_encodes ho.encodes rest, ho.convert⟩⟩
  intro hnil
  have hread := ho.encodes [] 0 (by simp only [serialized] at hnil; simp [hnil])
  cases hread

/-- By induction on the values: the first one whose bytes are not all there is not read. -/
theorem unstack_truncated {values args : List (Var Ty.Val)}
    (hwf : ∀ v ∈ values, v.1.WellFormed v.2)
    (htypes : args.map Sigma.fst = values.map Sigma.fst) {bytes : List UInt8} {readOffset n : Nat}
    (hn : n < (values.flatMap serialized).length)
    (hbytes : bytes.drop readOffset = (values.flatMap serialized).take n) :
    unstackAndDeserialize unpacker bytes readOffset args = .error .insufficientBytes := by
  induction values generalizing readOffset n args with
  | nil => cases hn
  | cons v values ih =>
    cases args with
    | nil => cases htypes
    | cons value args =>
      rw [List.map_cons, List.map_cons, List.cons.injEq] at htypes
      rw [List.flatMap_cons, List.length_append] at hn
      rw [List.flatMap_cons, List.take_append] at hbytes
      obtain ⟨o, ho⟩ := exists_carries v.1 (hwf v List.mem_cons_self)
      by_cases hfirst : n < (serialized v).length
      · have hnone : (values.flatMap serialized).take (n - (serialized v).length) = [] := by
          rw [Nat.sub_eq_zero_of_le hfirst.le, List.take_zero]
        have hcut : unpacker.unpack ((serialized v).take n) = .error .insufficientBytes :=
          unpack_truncated ho.encodes hfirst
        unfold unstackAndDeserialize deserializeBytes
        rw [hbytes, hnone, List.append_nil, hcut]
      · have hle : (serialized v).length ≤ n := Nat.le_of_not_lt hfirst
        have hwhole : (serialized v).take n = serialized v := List.take_of_length_le hle
        have hrest : bytes.drop (readOffset + (serialized v).length) =
            (values.flatMap serialized).take (n - (serialized v).length) := by
          rw [← List.drop_drop, hbytes, hwhole, List.drop_left]
        unfold unstackAndDeserialize
        rw [hbytes, hwhole,
          deserializeBytes_of_encoding (decodes (hwf v List.mem_cons_self)) _ htypes.1]
        dsimp only
        rw [ih (fun x hx => hwf x (List.mem_cons_of_mem _ hx)) htypes.2 (by omega) hrest]

/-- One value is read from an object in front of the unread bytes. -/
theorem deserialize_object {s : IByteStream} {data : List UInt8} (h : s.Over data)
    (hgood : s.good = true) {bytes rest : List UInt8} {o : Object} (ho : Encodes bytes o)
    (hunread : s.unread = bytes ++ rest) {t : Ty} {held v : t.Val}
    (hconvert : t.codec.convert held o = .ok v) :
    ∃ s', deserialize unpacker s [⟨t, held⟩] = (.ok [⟨t, v⟩], s') ∧ s'.good = true ∧
      s'.unread = rest := by
  have hne : bytes ≠ [] := by
    rintro rfl
    cases ho [] 0 (le_refl _)
  obtain ⟨hdata, hle, hrest⟩ := moved_of_unread h hne hunread
  have hnonneg := h.inv.next_nonneg
  have hend := over_moveTo h (Int.natCast_nonneg data.length) (le_refl _)
  have hread : unstackAndDeserialize unpacker s.unread 0 [⟨t, held⟩] =
      .ok ([⟨t, v⟩], bytes.length) := by
    have hunpack : unpacker.unpack (bytes ++ rest) = .ok (o, bytes.length) :=
      unpack_of_encodes ho rest
    have hvalue : unpacker.convert t held o = .ok v := hconvert
    unfold unstackAndDeserialize deserializeBytes
    rw [List.drop_zero, hunread, hunpack]
    dsimp only
    rw [hvalue]
    dsimp only
    rw [unstackAndDeserialize, Nat.zero_add]
  refine ⟨moveTo s (s.buffer.getArea.next + bytes.length), ?_, hgood, hrest⟩
  rw [deserialize_eq unpacker h hgood, hread]
  dsimp only
  rw [tellg_eq h hgood hdata, seekgPos_eq hend hgood, if_pos ⟨hdata, by omega, by omega⟩,
    moveTo_moveTo]

end DtoLemmas

open DtoLemmas SerializerLemmas IByteStream.IByteStreamLemmas IByteStream.PositionsLemmas

/-! ## Results -/

/-- The values of a message, whatever was written before and after them, are read back by a stream
that has come to where they begin. The stream is then where they end. -/
theorem messages_round_trip (m : Machine) (before after : List OByteStream.Write)
    {values : List (Var Ty.Val)} (hne : values ≠ []) (hwf : ∀ v ∈ values, v.1.WellFormed v.2)
    (hsmall : (OByteStream.written m
      (before ++ values.map (fun v => .block (serialized v)) ++ after)).length < 0x80000000) :
    ∃ data, (OByteStream.create.run m
        (before ++ values.map (fun v => .block (serialized v)) ++ after)).bytes = some data ∧
      ∀ s : IByteStream, s.Over data → s.good = true →
        s.unread = data.drop (OByteStream.written m before).length →
        ∀ args : List (Var Ty.Val), args.map Sigma.fst = values.map Sigma.fst →
          ∃ s', deserialize unpacker s args = (.ok values, s') ∧ s'.good = true ∧
            s'.unread = OByteStream.written m after := by
  refine ⟨_, OByteStream.bytes_concatenate m _ hsmall, ?_⟩
  intro s hover hgood hunread args htypes
  have hblocks : OByteStream.written m (values.map fun v => .block (serialized v)) =
      values.flatMap serialized := by
    unfold OByteStream.written
    rw [List.flatMap_map]
    rfl
  have hparts : s.unread = values.flatMap serialized ++ OByteStream.written m after := by
    rw [hunread]
    unfold OByteStream.written at hblocks ⊢
    rw [List.flatMap_append, List.flatMap_append, List.append_assoc, List.drop_left, hblocks]
  have hd := fun v hv => decodes (hwf v hv)
  obtain ⟨-, -, hrest⟩ := moved_of_unread hover (values_ne_nil hd hne) hparts
  exact ⟨_, deserialize_of_values hover hgood hd hne htypes hparts, hgood, hrest⟩

/-- A message with one route between two other bytes. -/
theorem messages_round_trip_mapping :
    ∃ data, (OByteStream.create.run ⟨.little, 8⟩ [.block [9],
        .block (serialized ⟨.map .connectionResult, ⟨7, [(['a'], 3)]⟩⟩), .block [1]]).bytes =
          some data ∧
      ∀ s : IByteStream, s.Over data → s.good = true → s.unread = data.drop 1 →
        ∀ args : List (Var Ty.Val), args.map Sigma.fst = [.map .connectionResult] →
          ∃ s', deserialize unpacker s args =
            (.ok [⟨.map .connectionResult, ⟨7, [(['a'], 3)]⟩⟩], s') ∧ s'.good = true ∧
            s'.unread = [1] := by
  have hwf : Ty.WellFormed (.map .connectionResult) ⟨7, [(['a'], 3)]⟩ :=
    ⟨by decide, List.forall_mem_singleton.mpr ⟨by simp, by decide⟩, fun _ _ => trivial,
      by decide⟩
  exact messages_round_trip ⟨.little, 8⟩ [.block [9]] [.block [1]] (List.cons_ne_nil _ [])
    (List.forall_mem_singleton.mpr hwf) (by decide)

/-- A message whose end is missing is not read, wherever it is cut. -/
theorem deserialize_truncated {s : IByteStream} {data : List UInt8} (h : s.Over data)
    (hgood : s.good = true) {values args : List (Var Ty.Val)}
    (hwf : ∀ v ∈ values, v.1.WellFormed v.2)
    (htypes : args.map Sigma.fst = values.map Sigma.fst) {n : Nat}
    (hn : n < (values.flatMap serialized).length)
    (hunread : s.unread = (values.flatMap serialized).take n) :
    (deserialize unpacker s args).1 = .error .insufficientBytes := by
  rw [deserialize_eq unpacker h hgood, unstack_truncated hwf htypes hn (by simpa using hunread)]

theorem deserialize_truncated_disconnect :
    (deserialize unpacker (IByteStream.ofBytes [0x92, 0xa1])
      [⟨.array .p2pDisconnectFromScene, ⟨[], []⟩⟩]).1 = .error .insufficientBytes := by
  have hwf : ∀ v ∈ [(⟨.array .p2pDisconnectFromScene, ⟨['s'], ['r']⟩⟩ : Var Ty.Val)],
      v.1.WellFormed v.2 :=
    List.forall_mem_singleton.mpr
      ⟨⟨by simp, by decide⟩, by simp, by decide⟩
  exact deserialize_truncated (n := 2) (over_ofBytes [0x92, 0xa1]) rfl hwf rfl (by decide)
    (by decide)

/-- A record from a map whose pairs come in any order, with keys of no member and without those of
some members: what is there is read, and the variable keeps the rest. -/
theorem deserialize_of_pairs {s : IByteStream} {data : List UInt8} (h : s.Over data)
    (hgood : s.good = true) (t : MapTy) {r : t.Val} (hwf : t.WellFormed r) (held : t.Val)
    {sent : List (List UInt8 × List UInt8)} {rest : List UInt8}
    (hlength : sent.length < 0x100000000) (hkeys : ∀ p ∈ sent, p.1.length < 0x100000000)
    (hobjects : ∀ p ∈ sent, ∃ o, Encodes p.2 o)
    (hsent : ∀ f ∈ t.fields, ∀ bytes ∈ sent.lookup f.name, bytes = f.pack r)
    (hunread : s.unread = mapHeader sent.length ++
      sent.flatMap (fun p => packStr p.1 ++ p.2) ++ rest) :
    ∃ s', deserialize unpacker s [⟨.map t, held⟩] =
        (.ok [⟨.map t, copyAll (t.fields.filter fun f => (sent.lookup f.name).isSome) r held⟩],
          s') ∧
      s'.good = true ∧ s'.unread = rest := by
  obtain ⟨object, hobject⟩ := exists_objects hobjects
  have hencodes : Encodes (mapHeader sent.length ++ sent.flatMap fun p => packStr p.1 ++ p.2)
      (.map (sent.map fun p => (.str p.1, object p))) :=
    encodes_packMap hlength (fun p hp => encodes_packStr (hkeys p hp)) hobject
  have hfound : ∀ name : List UInt8, (sent.map fun p => (p.1, object p)).lookup name =
      (sent.lookup name).map fun bytes => object (name, bytes) := lookup_map_object object sent
  refine deserialize_object h hgood hencodes hunread
    ((convert_defineMap (r := r) (keyed_map Prod.fst object sent) ?_ held).trans ?_)
  · intro f hf o ho
    rw [hfound, Option.map_eq_some_iff] at ho
    obtain ⟨bytes, hbytes, rfl⟩ := ho
    obtain ⟨o, hcarries⟩ := map_members t hwf f hf
    have hmember := hsent f hf bytes hbytes
    obtain ⟨before, after, rfl, -⟩ := List.lookup_eq_some_iff.mp hbytes
    have hmem := hobject (f.name, bytes) (by simp)
    dsimp only at hmem
    rw [hmember] at hmem ⊢
    rwa [hmem.unique hcarries.encodes]
  · simp only [hfound, Option.isSome_map]

/-- One unknown key, and a handle that is missing. -/
theorem deserialize_of_pairs_mappings :
    ∃ s', deserialize unpacker (IByteStream.ofBytes
          (mapHeader 2 ++ (packStr [1] ++ packNil ++ (packStr (dataOf "RouteMappings".toList) ++
            mapHeader 0)) ++ [5]))
        [⟨.map .connectionResult, ⟨9, [(['x'], 1)]⟩⟩] =
      (.ok [⟨.map .connectionResult, ⟨9, []⟩⟩], s') ∧ s'.good = true ∧ s'.unread = [5] := by
  have hmetadata : IsMetadata [] := ⟨by decide, by simp, by simp, by decide⟩
  obtain ⟨pairs, hempty⟩ := carries_metadata hmetadata
  have hobjects : ∀ p ∈ [([1], packNil), (dataOf "RouteMappings".toList, mapHeader 0)],
      ∃ o, Encodes p.2 o := by
    simp only [List.forall_mem_cons, List.not_mem_nil, false_implies, implies_true, and_true]
    exact ⟨⟨_, encodes_packNil⟩, _, hempty.encodes⟩
  exact deserialize_of_pairs (over_ofBytes _) rfl .connectionResult (r := ⟨7, []⟩)
    ⟨by decide, by simp, by simp, by decide⟩ ⟨9, [(['x'], 1)]⟩ (by decide) (by decide) hobjects
    (by decide) (unread_ofBytes _)

/-- A record from the array of another version of it: of an older one the variable keeps the members
that are missing, of a newer one the last items are left out. -/
theorem deserialize_of_items {s : IByteStream} {data : List UInt8} (h : s.Over data)
    (hgood : s.good = true) (t : ArrayTy) {r : t.Val} (hwf : t.WellFormed r) (held : t.Val)
    {items : List (List UInt8)} {rest : List UInt8} (hlength : items.length < 0x100000000)
    (hobjects : ∀ bytes ∈ items, ∃ o, Encodes bytes o)
    (hitems : ∀ p ∈ t.fields.zip items, p.2 = p.1.pack r)
    (hunread : s.unread = arrayHeader items.length ++ items.flatten ++ rest) :
    ∃ s', deserialize unpacker s [⟨.array t, held⟩] =
        (.ok [⟨.array t, copyAll (t.fields.take items.length) r held⟩], s') ∧
      s'.good = true ∧ s'.unread = rest := by
  obtain ⟨object, hobject⟩ := exists_objects hobjects
  have hencodes : Encodes (arrayHeader items.length ++ items.flatten) (.array (items.map object)) :=
    by simpa using encodes_packArray hlength hobject
  refine deserialize_object h hgood hencodes hunread
    ((convertFields_take (r := r) ?_ held).trans ?_)
  · intro p hp
    rw [List.zip_map_right, List.mem_map] at hp
    obtain ⟨p, hp, rfl⟩ := hp
    obtain ⟨o, hcarries⟩ := array_members t hwf p.1 (List.of_mem_zip hp).1
    have hmem := hobject _ (List.of_mem_zip hp).2
    rw [hitems p hp] at hmem
    rw [Prod.map_fst, Prod.map_snd, id_eq, hitems p hp, hmem.unique hcarries.encodes]
    exact hcarries
  · rw [List.length_map]

/-- From an array with one item. -/
theorem deserialize_of_items_useTunnel :
    ∃ s', deserialize unpacker (IByteStream.ofBytes [0x91, 0xc3])
        [⟨.array .openTunnelResult, ⟨false, ['e'], 4⟩⟩] =
      (.ok [⟨.array .openTunnelResult, ⟨true, ['e'], 4⟩⟩], s') ∧ s'.good = true ∧
      s'.unread = [] :=
  deserialize_of_items (over_ofBytes [0x91, 0xc3]) rfl .openTunnelResult (r := ⟨true, [], 0⟩)
    ⟨by simp, by decide⟩ ⟨false, ['e'], 4⟩ (by decide)
    (List.forall_mem_singleton.mpr ⟨_, encodes_packBool true⟩) (by decide) (by decide)

end Stormancer.Dto
