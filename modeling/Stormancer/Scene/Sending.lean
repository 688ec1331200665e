import Stormancer.Scene.Routes
import Stormancer.Streams.OByteStream

/-!
# Messages to several peers

`Scene_Impl::send` with a filter for peers. It looks up the peers and sends to them one after the
other, and the first exception ends the loop: nothing is looked up beforehand, and nothing is taken
back.

The connections of the peers and their `ChannelUidStore` are a parameter: both calls may throw, and
may depend on everything before. The priority, the reliability and the metadata, which are passed
on to the connection, are left out. A stream writer is what it writes.

Results:
1. `sendEach_spec`: what a loop over targets has sent when it ends.
2. `sends_in_order`: a call sends to all targets, or throws after the targets before the first one
   that cannot be sent to.
3. `second_peer_fails`: a peer without the route behind one that has it.
-/

namespace Stormancer.Scene.Sending

open Streams (Machine OByteStream)

/-! ## Definitions -/

/-- An `IScenePeer`, with the handles of its routes. A connection is a number. -/
structure ScenePeer where
  handle : UInt8
  connection : Nat
  routes : List (Str × UInt16)
deriving DecidableEq

inductive PeerFilter
  | matchSceneHost
  | matchPeers (ids : List Str)
  | matchAllP2P
deriving DecidableEq

structure SceneImpl where
  /-- The client was not deleted. -/
  client : Bool
  connectionState : ConnectionState
  id : Str
  host : ScenePeer
  /-- The entries of `_connectedPeers`, in the order of the iteration. -/
  connectedPeers : List (Str × ScenePeer)
  distinct : (connectedPeers.map Prod.fst).Nodup

/-- The arguments of `send` besides the filter. -/
structure Arguments where
  routeName : Str
  streamWriter : Option (List UInt8)
  channelIdentifier : Str

/-- What `connection->send` is called with, for a peer. -/
structure Packet where
  peer : ScenePeer
  bytes : List UInt8
  channelUid : Int
deriving DecidableEq

/-- The functions of the connections, over a state of theirs. -/
structure Connections (σ : Type) where
  getChannelUid : σ → (connection : Nat) → Str → Except String Int × σ
  send : σ → Packet → Except String Unit × σ

/-- The connections, and the packets that were sent. -/
structure World (σ : Type) where
  state : σ
  sent : List Packet

variable {σ : Type} (m : Machine) (c : Connections σ)

/-- The channel identifier, or the one that is made of the scene and the route. -/
def channelOf (s : SceneImpl) (a : Arguments) : Str :=
  if a.channelIdentifier = [] then "Scene_".toList ++ s.id ++ "_".toList ++ a.routeName
  else a.channelIdentifier

/-- What `streamWriter2` writes. -/
def packetBytes (peer : ScenePeer) (routeHandle : UInt16) (a : Arguments) : List UInt8 :=
  OByteStream.written m
    [.value (.fixed (.uint8 peer.handle)), .value (.fixed (.uint16 routeHandle)),
      .block (a.streamWriter.getD [])]

/-- `send(scenePeer, routeName, ...)`. -/
def sendToPeer (s : SceneImpl) (a : Arguments) (peer : ScenePeer) (w : World σ) :
    Except String Unit × World σ :=
  match peer.routes.lookup a.routeName with
  | none =>
    (.error s!"The route '{String.ofList a.routeName}' doesn't exist in the ScenePeer", w)
  | some routeHandle =>
    match c.getChannelUid w.state peer.connection (channelOf s a) with
    | (.error text, state) => (.error text, { w with state := state })
    | (.ok channelUid, state) =>
      let packet : Packet := ⟨peer, packetBytes m peer routeHandle a, channelUid⟩
      match c.send state packet with
      | (.error text, state) => (.error text, { w with state := state })
      | (.ok _, state) => (.ok (), ⟨state, w.sent ++ [packet]⟩)

/-- A loop whose body may throw. -/
def sendEach {α : Type} (body : α → World σ → Except String Unit × World σ) :
    List α → World σ → Except String Unit × World σ
  | [], w => (.ok (), w)
  | target :: rest, w =>
    match body target w with
    | (.error text, w) => (.error text, w)
    | (.ok _, w) => sendEach body rest w

/-- The body of the loop over the ids of a filter. -/
def sendToId (s : SceneImpl) (a : Arguments) (id : Str) (w : World σ) :
    Except String Unit × World σ :=
  match s.connectedPeers.lookup id with
  | none => (.error "Peer not found", w)
  | some peer => sendToPeer m c s a peer w

/-- `Scene_Impl::send`. -/
def send (s : SceneImpl) (filter : PeerFilter) (a : Arguments) (w : World σ) :
    Except String Unit × World σ :=
  if s.client = false then (.error "Client deleted", w)
  else if s.connectionState ≠ .connected then (.error "The scene is not connected", w)
  else if a.routeName.length = 0 then (.error "The Route name is invalid", w)
  else
    match filter with
    | .matchSceneHost => sendToPeer m c s a s.host w
    | .matchAllP2P =>
      sendEach (fun entry => sendToPeer m c s a entry.2) s.connectedPeers w
    | .matchPeers ids =>
      if ids.length = 0 then
        (.error "peerFilter: A MatchPeers filter needs to have at least one Peer Session Id", w)
      else sendEach (sendToId m c s a) ids w

/-! ## The property -/

/-- The peers that a filter targets, in order; `none` for an id without an entry. -/
def targets (s : SceneImpl) : PeerFilter → List (Option ScenePeer)
  | .matchSceneHost => [some s.host]
  | .matchAllP2P => s.connectedPeers.map fun entry => some entry.2
  | .matchPeers ids => ids.map fun id => s.connectedPeers.lookup id

/-- The message was sent to these targets, once to each and in order, and to nobody else. -/
structure SentTo (a : Arguments) (w w' : World σ) (reached : List (Option ScenePeer)) : Prop where
  packets : ∃ packets, w'.sent = w.sent ++ packets ∧ packets.map (some ·.peer) = reached ∧
    ∀ p ∈ packets, ∃ routeHandle, p.peer.routes.lookup a.routeName = some routeHandle ∧
      p.bytes = packetBytes m p.peer routeHandle a

/-- The message was sent to all targets, or to none when the call throws. -/
def AllOrNothing (s : SceneImpl) (filter : PeerFilter) (a : Arguments) (w : World σ) : Prop :=
  ((send m c s filter a w).1 = .ok () ∧
      SentTo m a w (send m c s filter a w).2 (targets s filter)) ∨
    ∃ text, (send m c s filter a w).1 = .error text ∧ SentTo m a w (send m c s filter a w).2 []

/-- The checks before anything is sent. -/
def refused (s : SceneImpl) (filter : PeerFilter) (a : Arguments) : Option String :=
  if s.client = false then some "Client deleted"
  else if s.connectionState ≠ .connected then some "The scene is not connected"
  else if a.routeName.length = 0 then some "The Route name is invalid"
  else if filter = .matchPeers [] then
    some "peerFilter: A MatchPeers filter needs to have at least one Peer Session Id"
  else none

/-- What the body of a loop does at a target. -/
def sendToTarget (s : SceneImpl) (a : Arguments) (target : Option ScenePeer) (w : World σ) :
    Except String Unit × World σ :=
  match target with
  | none => (.error "Peer not found", w)
  | some peer => sendToPeer m c s a peer w

/-- The call has sent to all targets, or it has sent to those before a target, at which it has
thrown what sending to that target throws. -/
def Ends (s : SceneImpl) (a : Arguments) (targets : List (Option ScenePeer)) (w : World σ)
    (r : Except String Unit × World σ) : Prop :=
  (r.1 = .ok () ∧ SentTo m a w r.2 targets) ∨
    ∃ text before target after w₁, r.1 = .error text ∧ targets = before ++ target :: after ∧
      SentTo m a w w₁ before ∧ sendToTarget m c s a target w₁ = r ∧ SentTo m a w r.2 before

namespace SendingLemmas

variable {m : Machine} {c : Connections σ} {s : SceneImpl} {a : Arguments} {w w' : World σ}

theorem sentTo_nil {reached : List (Option ScenePeer)} (h : w'.sent = w.sent)
    (hnil : reached = []) : SentTo m a w w' reached :=
  ⟨[], by simp [h], by simp [hnil], fun p hp => absurd hp (List.not_mem_nil)⟩

theorem sentTo_append {w₁ w₂ w₃ : World σ} {r r' : List (Option ScenePeer)}
    (h : SentTo m a w₁ w₂ r) (h' : SentTo m a w₂ w₃ r') : SentTo m a w₁ w₃ (r ++ r') := by
  obtain ⟨ps, hsent, hpeers, hbytes⟩ := h
  obtain ⟨ps', hsent', hpeers', hbytes'⟩ := h'
  refine ⟨ps ++ ps', ?_, ?_, ?_⟩
  · rw [hsent', hsent, List.append_assoc]
  · rw [List.map_append, hpeers, hpeers']
  · intro p hp
    rcases List.mem_append.mp hp with hp | hp
    · exact hbytes p hp
    · exact hbytes' p hp

/-- One peer: it is sent to, or the exception leaves what was sent. -/
theorem sendToPeer_spec (peer : ScenePeer) (w : World σ) :
    (sendToPeer m c s a peer w).1 = .ok () ∧
        SentTo m a w (sendToPeer m c s a peer w).2 [some peer] ∨
      ∃ text, (sendToPeer m c s a peer w).1 = .error text ∧
        (sendToPeer m c s a peer w).2.sent = w.sent := by
  unfold sendToPeer
  cases hroute : peer.routes.lookup a.routeName with
  | none => exact .inr ⟨_, rfl, rfl⟩
  | some routeHandle =>
    dsimp only
    match c.getChannelUid w.state peer.connection (channelOf s a) with
    | (.error text, state) => exact .inr ⟨text, rfl, rfl⟩
    | (.ok channelUid, state) =>
      dsimp only
      match c.send state ⟨peer, packetBytes m peer routeHandle a, channelUid⟩ with
      | (.error text, state) => exact .inr ⟨text, rfl, rfl⟩
      | (.ok _, state) =>
        refine .inl ⟨rfl, _, rfl, rfl, ?_⟩
        intro p hp
        rw [List.mem_singleton] at hp
        subst hp
        exact ⟨routeHandle, hroute, rfl⟩

theorem sendToTarget_spec (target : Option ScenePeer) (w : World σ) :
    (sendToTarget m c s a target w).1 = .ok () ∧
        SentTo m a w (sendToTarget m c s a target w).2 [target] ∨
      ∃ text, (sendToTarget m c s a target w).1 = .error text ∧
        (sendToTarget m c s a target w).2.sent = w.sent := by
  cases target with
  | none => exact .inr ⟨_, rfl, rfl⟩
  | some peer => exact sendToPeer_spec peer w

theorem sendToId_eq (id : Str) (w : World σ) :
    sendToId m c s a id w = sendToTarget m c s a (s.connectedPeers.lookup id) w := by
  unfold sendToId sendToTarget
  cases s.connectedPeers.lookup id <;> rfl

theorem ends_single (target : Option ScenePeer) (w : World σ) :
    Ends m c s a [target] w (sendToTarget m c s a target w) := by
  rcases sendToTarget_spec target w with hok | ⟨text, herror, hsame⟩
  · exact .inl hok
  · exact .inr ⟨text, [], target, [], w, herror, rfl, sentTo_nil rfl rfl, rfl,
      sentTo_nil hsame rfl⟩

/-- By induction on the targets: each of them is sent to, or it ends the loop. -/
theorem sendEach_spec {α : Type} {body : α → World σ → Except String Unit × World σ}
    {target : α → Option ScenePeer}
    (hbody : ∀ x w, body x w = sendToTarget m c s a (target x) w) (xs : List α) (w : World σ) :
    Ends m c s a (xs.map target) w (sendEach body xs w) := by
  induction xs generalizing w with
  | nil => exact .inl ⟨rfl, sentTo_nil rfl rfl⟩
  | cons x xs ih =>
    have hfirst := sendToTarget_spec (m := m) (c := c) (s := s) (a := a) (target x) w
    have hx := hbody x w
    unfold sendEach
    match hr : body x w with
    | (.error text, w₁) =>
      rw [hr] at hx
      rw [← hx] at hfirst
      rcases hfirst with ⟨hok, -⟩ | ⟨_, -, hsame⟩
      · cases hok
      · exact .inr ⟨text, [], target x, xs.map target, w, rfl, rfl, sentTo_nil rfl rfl, hx.symm,
          sentTo_nil hsame rfl⟩
    | (.ok _, w₁) =>
      rw [hr] at hx
      rw [← hx] at hfirst
      rcases hfirst with ⟨-, hsent⟩ | ⟨_, herror, -⟩
      · rcases ih w₁ with
          ⟨hok, hall⟩ | ⟨text, before, t, after, w₂, herror, hsplit, hreached, ht, hbefore⟩
        · exact .inl ⟨hok, sentTo_append hsent hall⟩
        · refine .inr ⟨text, target x :: before, t, after, w₂, herror, ?_,
            sentTo_append hsent hreached, ht, sentTo_append hsent hbefore⟩
          rw [List.map_cons, hsplit, List.cons_append]
      · cases herror

end SendingLemmas

open SendingLemmas

/-! ## Results -/

/-- For every table of peers, every filter and whatever the connections do: either the checks throw
and nothing is sent, or the message is sent to all targets, or it is sent to the targets before the
one at which the call throws. -/
theorem sends_in_order (s : SceneImpl) (filter : PeerFilter) (a : Arguments) (w : World σ) :
    (∀ text, refused s filter a = some text → send m c s filter a w = (.error text, w)) ∧
      (refused s filter a = none →
        Ends m c s a (targets s filter) w (send m c s filter a w)) := by
  unfold refused send
  by_cases hclient : s.client = false
  · simp [hclient]
  by_cases hconnected : s.connectionState ≠ .connected
  · simp [hclient, hconnected]
  by_cases hroute : a.routeName.length = 0
  · simp [hclient, hconnected, hroute]
  rw [if_neg hclient, if_neg hclient, if_neg hconnected, if_neg hconnected, if_neg hroute,
    if_neg hroute]
  cases filter with
  | matchSceneHost =>
    refine ⟨fun text htext => by simp at htext, fun _ => ?_⟩
    exact ends_single (some s.host) w
  | matchAllP2P =>
    refine ⟨fun text htext => by simp at htext, fun _ => ?_⟩
    exact sendEach_spec (fun _ _ => rfl) s.connectedPeers w
  | matchPeers ids =>
    dsimp only
    by_cases hids : ids = []
    · simp [hids]
    · have hlength : ids.length ≠ 0 := by simpa using hids
      rw [if_neg hlength]
      refine ⟨fun text htext => by simp [hids] at htext, fun _ => ?_⟩
      exact sendEach_spec sendToId_eq ids w

/-- Connections that send everything. -/
def reliable : Connections Unit where
  getChannelUid _ _ _ := (.ok 1, ())
  send _ _ := (.ok (), ())

/-- A scene with two peers, of which the second has no route. -/
def twoPeers : SceneImpl where
  client := true
  connectionState := .connected
  id := ['s']
  host := ⟨0, 0, []⟩
  connectedPeers := [(['a'], ⟨1, 1, [(['r'], 7)]⟩), (['b'], ⟨2, 2, []⟩)]
  distinct := by decide

/-- The message was sent to the first peer when the call throws. -/
theorem second_peer_fails : ¬ ∀ (s : SceneImpl) (filter : PeerFilter) (a : Arguments),
    filter ≠ .matchSceneHost → AllOrNothing ⟨.little, 8⟩ reliable s filter a ⟨(), []⟩ := by
  intro h
  have hboth := h twoPeers (.matchPeers [['a'], ['b']]) ⟨['r'], none, []⟩ (by decide)
  rcases hboth with ⟨hok, -⟩ | ⟨_, -, packets, hsent, hpeers, -⟩
  · exact absurd hok (by decide)
  · rw [List.map_eq_nil_iff] at hpeers
    subst hpeers
    exact absurd (congrArg List.length hsent) (by decide)

end Stormancer.Scene.Sending
