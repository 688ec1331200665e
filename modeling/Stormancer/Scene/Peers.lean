import Stormancer.Lib.Alternation
import Stormancer.Scene.Routes

/-!
# The peers of a scene and their events

`Scene_Impl` keeps the peers that are connected to the scene in a table, and posts the events of
their connections and disconnections to the dispatcher of the game, which runs the posted actions
in order. The action of `raisePeerConnected` holds an iterator into the table.

What the constructor of `P2PScenePeer` reads of its connection besides the session id, the
request that `disconnect` sends, the subscribers of the events, and the end of the scene are left
out.

Results:
1. `peerEvents_alternate`: over every run in which a peer's `Connected` is raised once, and its
   `Disconnected` after the `Connected` was published, the actions use entries of the table and
   the events of each peer alternate.
2. `disconnected_early`: a peer disconnects before the dispatcher has run.
-/

namespace Stormancer.Scene.Peers

open Alternation

/-! ## Definitions -/

/-- A `P2PScenePeer`, by the number of the `make_shared` that made it. -/
structure P2PScenePeer where
  serial : Nat
  sessionId : Str
deriving DecidableEq

/-- A posted action, and the event that it publishes. -/
inductive PeerEvent
  /-- The action holds an iterator to the entry of this peer. -/
  | connected (it : P2PScenePeer)
  /-- The action holds the peer. -/
  | disconnected (peer : P2PScenePeer)
deriving DecidableEq

namespace PeerEvent

def peer : PeerEvent → P2PScenePeer
  | .connected it => it
  | .disconnected peer => peer

def isConnected : PeerEvent → Bool
  | .connected _ => true
  | .disconnected _ => false

end PeerEvent

structure SceneImpl where
  connectedPeers : Slots.Table Str P2PScenePeer
  /-- The peers that were made. The subscription of each outlives its entry. -/
  made : List P2PScenePeer
  /-- The actions that the dispatcher has not run, the next one first. -/
  posted : List PeerEvent
  published : List PeerEvent

namespace SceneImpl

def init : SceneImpl where
  connectedPeers := ∅
  made := []
  posted := []
  published := []

def peerConnected (s : SceneImpl) (sessionId : Str) : SceneImpl :=
  match s.connectedPeers.lookup sessionId with
  | none =>
    let scenePeer : P2PScenePeer := ⟨s.made.length, sessionId⟩
    { s with
      connectedPeers := s.connectedPeers.insert sessionId scenePeer
      made := s.made ++ [scenePeer] }
  | some _ => s

def raisePeerConnected (s : SceneImpl) (sessionId : Str) : SceneImpl :=
  match s.connectedPeers.lookup sessionId with
  | some it => { s with posted := s.posted ++ [.connected it] }
  | none => s

def raisePeerDisconnected (s : SceneImpl) (sessionId : Str) : SceneImpl :=
  match s.connectedPeers.lookup sessionId with
  | some peer =>
    { s with
      connectedPeers := s.connectedPeers.erase sessionId
      posted := s.posted ++ [.disconnected peer] }
  | none => s

/-- What a `P2PScenePeer` does when the state of its connection changes. -/
def onNext (s : SceneImpl) (peer : P2PScenePeer) : ConnectionState → SceneImpl
  | .disconnected => s.raisePeerDisconnected peer.sessionId
  | _ => s

/-- `P2PScenePeer::disconnect`. -/
def disconnect (s : SceneImpl) (peer : P2PScenePeer) : SceneImpl :=
  s.raisePeerDisconnected peer.sessionId

/-- The entry at which the action's iterator stands is no longer in the table. -/
def dangles (s : SceneImpl) : PeerEvent → Bool
  | .connected it => decide (s.connectedPeers.lookup it.sessionId ≠ some it)
  | .disconnected _ => false

/-- The dispatcher runs an action. With an iterator that dangles the behaviour is undefined. -/
def runPosted (s : SceneImpl) : Option SceneImpl :=
  match s.posted with
  | [] => none
  | action :: rest =>
    if s.dangles action then none
    else some { s with posted := rest, published := s.published ++ [action] }

inductive Action
  | peerConnected (sessionId : Str)
  | raisePeerConnected (sessionId : Str)
  | raisePeerDisconnected (sessionId : Str)
  /-- The connection of a peer that was made changes its state. -/
  | onNext (i : Nat) (state : ConnectionState)
  | disconnect (i : Nat)
  | runPosted
deriving DecidableEq

def step (s : SceneImpl) : Action → Option SceneImpl
  | .peerConnected sessionId => some (s.peerConnected sessionId)
  | .raisePeerConnected sessionId => some (s.raisePeerConnected sessionId)
  | .raisePeerDisconnected sessionId => some (s.raisePeerDisconnected sessionId)
  | .onNext i state => s.made[i]?.map fun peer => s.onNext peer state
  | .disconnect i => s.made[i]?.map s.disconnect
  | .runPosted => s.runPosted

/-! ## The property -/

/-- The action that runs next uses an entry that is in the table. -/
def UsesEntry (s : SceneImpl) : Prop :=
  ∀ action ∈ s.posted.head?, s.dangles action = false

/-- The events of a peer among others. -/
def eventsOf (sessionId : Str) (events : List PeerEvent) : List PeerEvent :=
  events.filter fun e => decide (e.peer.sessionId = sessionId)

/-- `Connected` and `Disconnected` are published in turn, and `Connected` first. -/
def EventsAlternate (s : SceneImpl) (sessionId : Str) : Prop :=
  Alternates PeerEvent.isConnected (eventsOf sessionId s.published)

/-! ## The condition -/

/-- The events that are published or will be. -/
def raised (s : SceneImpl) : List PeerEvent := s.published ++ s.posted

/-- `Connected` was not raised before for the peer. -/
def mayConnect (s : SceneImpl) (sessionId : Str) : Bool :=
  (s.connectedPeers.lookup sessionId).all fun peer => decide (.connected peer ∉ s.raised)

/-- `Connected` was published for the peer. -/
def mayDisconnect (s : SceneImpl) (sessionId : Str) : Bool :=
  (s.connectedPeers.lookup sessionId).all fun peer => decide (.connected peer ∈ s.published)

def raisesInTurn (s : SceneImpl) : Action → Bool
  | .raisePeerConnected sessionId => s.mayConnect sessionId
  | .raisePeerDisconnected sessionId => s.mayDisconnect sessionId
  | .onNext i .disconnected | .disconnect i =>
    s.made[i]?.all fun peer => s.mayDisconnect peer.sessionId
  | _ => true

abbrev RaisesInTurn (s : SceneImpl) (a : Action) : Prop := s.raisesInTurn a = true

/-! ## The invariant -/

structure Inv (s : SceneImpl) : Prop where
  keyed : ∀ sessionId peer, s.connectedPeers.lookup sessionId = some peer →
    peer.sessionId = sessionId ∧ peer.serial < s.made.length
  raisedMade : ∀ e ∈ s.raised, e.peer.serial < s.made.length
  once : (s.raised.filter PeerEvent.isConnected).Nodup
  alternates : ∀ sessionId, Alternates PeerEvent.isConnected (eventsOf sessionId s.raised)
  /-- The last event of a peer is `Connected` when its entry has raised it. -/
  last : ∀ sessionId, isOpen PeerEvent.isConnected (eventsOf sessionId s.raised) = true ↔
    ∃ peer, s.connectedPeers.lookup sessionId = some peer ∧ .connected peer ∈ s.raised
  kept : ∀ peer, .connected peer ∈ s.posted → s.connectedPeers.lookup peer.sessionId = some peer

/-! ## Helpers -/

namespace PeersLemmas

variable {s s' : SceneImpl}

theorem eventsOf_append_own {sessionId : Str} {e : PeerEvent} (events : List PeerEvent)
    (h : e.peer.sessionId = sessionId) :
    eventsOf sessionId (events ++ [e]) = eventsOf sessionId events ++ [e] := by
  have hown : eventsOf sessionId [e] = [e] := List.filter_cons_of_pos (decide_eq_true h)
  rw [eventsOf, List.filter_append]
  exact congrArg _ hown

theorem eventsOf_append_other {sessionId : Str} {e : PeerEvent} (events : List PeerEvent)
    (h : e.peer.sessionId ≠ sessionId) :
    eventsOf sessionId (events ++ [e]) = eventsOf sessionId events := by
  have hother : eventsOf sessionId [e] = [] :=
    List.filter_cons_of_neg fun hdecide => h (of_decide_eq_true hdecide)
  rw [eventsOf, List.filter_append]
  exact (congrArg _ hother).trans (List.append_nil _)

theorem alternates_append {events : List PeerEvent} {e : PeerEvent}
    (h : ∀ sessionId, Alternates PeerEvent.isConnected (eventsOf sessionId events))
    (hne : isOpen PeerEvent.isConnected (eventsOf e.peer.sessionId events) ≠ e.isConnected)
    (sessionId : Str) :
    Alternates PeerEvent.isConnected (eventsOf sessionId (events ++ [e])) := by
  rcases eq_or_ne e.peer.sessionId sessionId with rfl | hown
  · rw [eventsOf_append_own events rfl]
    exact alternates_append_singleton.mpr ⟨h _, hne⟩
  · rw [eventsOf_append_other events hown]
    exact h sessionId

theorem raised_post (e : PeerEvent) (table : Slots.Table Str P2PScenePeer) :
    raised { s with connectedPeers := table, posted := s.posted ++ [e] } = s.raised ++ [e] :=
  (List.append_assoc _ _ _).symm

/-- A peer that was made last has raised nothing. -/
theorem not_raised_of_new (hinv : Inv s) {sessionId : Str} (e : PeerEvent)
    (he : e.peer = ⟨s.made.length, sessionId⟩) : e ∉ s.raised := by
  intro hmem
  have hlt := hinv.raisedMade e hmem
  rw [he] at hlt
  exact absurd hlt (Nat.lt_irrefl _)

theorem inv_peerConnected (hinv : Inv s) (sessionId : Str) : Inv (s.peerConnected sessionId) := by
  unfold peerConnected
  split
  case h_2 => exact hinv
  case h_1 hnone =>
    have hlookup := Slots.Table.lookup_insert_eq s.connectedPeers sessionId
    constructor
    case keyed =>
      intro key peer hpeer
      rw [hlookup] at hpeer
      rw [List.length_append, List.length_singleton]
      split at hpeer
      · next heq =>
        cases hpeer
        exact ⟨heq.symm, Nat.lt_succ_self _⟩
      · obtain ⟨hkey, hlt⟩ := hinv.keyed key peer hpeer
        exact ⟨hkey, Nat.lt_succ_of_lt hlt⟩
    case raisedMade =>
      intro e he
      rw [List.length_append, List.length_singleton]
      exact Nat.lt_succ_of_lt (hinv.raisedMade e he)
    case once => exact hinv.once
    case alternates => exact hinv.alternates
    case last =>
      intro key
      refine (hinv.last key).trans ?_
      dsimp only
      rw [hlookup]
      split
      · next heq =>
        subst heq
        rw [hnone]
        constructor
        · rintro ⟨peer, hpeer, -⟩
          cases hpeer
        · rintro ⟨peer, hpeer, hmem⟩
          cases hpeer
          exact absurd hmem (not_raised_of_new hinv _ rfl)
      · exact Iff.rfl
    case kept =>
      intro peer hmem
      have hold := hinv.kept peer hmem
      rw [hlookup, if_neg, hold]
      rintro rfl
      rw [hnone] at hold
      cases hold

theorem inv_raisePeerConnected (hinv : Inv s) {sessionId : Str}
    (hguard : s.mayConnect sessionId = true) : Inv (s.raisePeerConnected sessionId) := by
  unfold raisePeerConnected
  split
  case h_2 => exact hinv
  case h_1 it hit =>
    rw [mayConnect, hit, Option.all_some, decide_eq_true_eq] at hguard
    obtain ⟨rfl, hlt⟩ := hinv.keyed sessionId it hit
    have hraised := raised_post (s := s) (.connected it) s.connectedPeers
    constructor
    case keyed => exact hinv.keyed
    case raisedMade =>
      rw [hraised, List.forall_mem_append]
      exact ⟨hinv.raisedMade, List.forall_mem_singleton.mpr hlt⟩
    case once =>
      rw [hraised, List.filter_append]
      refine List.nodup_append.mpr ⟨hinv.once, List.nodup_singleton _, fun e he e' he' => ?_⟩
      cases List.mem_singleton.mp he'
      rintro rfl
      exact hguard (List.mem_of_mem_filter he)
    case alternates =>
      rw [hraised]
      refine alternates_append hinv.alternates fun hopen => ?_
      obtain ⟨peer, hpeer, hmem⟩ := (hinv.last it.sessionId).mp hopen
      cases hit.symm.trans hpeer
      exact hguard hmem
    case last =>
      intro key
      rw [hraised]
      rcases eq_or_ne it.sessionId key with hown | hown
      · rw [eventsOf_append_own s.raised (e := .connected it) hown, isOpen_append_singleton]
        subst hown
        exact iff_of_true rfl ⟨it, hit, List.mem_append_right _ (List.mem_singleton_self _)⟩
      · rw [eventsOf_append_other s.raised (e := .connected it) hown, hinv.last key]
        refine exists_congr fun peer => and_congr_right fun hpeer => ?_
        rw [List.mem_append, List.mem_singleton, PeerEvent.connected.injEq, or_iff_left]
        rintro rfl
        exact hown (hinv.keyed key peer hpeer).1
    case kept =>
      intro peer hmem
      rcases List.mem_append.mp hmem with hold | hnew
      · exact hinv.kept peer hold
      · cases List.mem_singleton.mp hnew
        exact hit

/-- An event that is published is not posted any more. -/
theorem not_posted (hinv : Inv s) {peer : P2PScenePeer} (h : .connected peer ∈ s.published) :
    .connected peer ∉ s.posted := by
  intro hposted
  have honce := hinv.once
  rw [raised, List.filter_append] at honce
  exact (List.disjoint_of_nodup_append honce) (List.mem_filter.mpr ⟨h, rfl⟩)
    (List.mem_filter.mpr ⟨hposted, rfl⟩)

theorem inv_raisePeerDisconnected (hinv : Inv s) {sessionId : Str}
    (hguard : s.mayDisconnect sessionId = true) : Inv (s.raisePeerDisconnected sessionId) := by
  unfold raisePeerDisconnected
  split
  case h_2 => exact hinv
  case h_1 peer hpeer =>
    rw [mayDisconnect, hpeer, Option.all_some, decide_eq_true_eq] at hguard
    obtain ⟨rfl, hlt⟩ := hinv.keyed sessionId peer hpeer
    have hlookup := Slots.Table.lookup_erase_eq s.connectedPeers peer.sessionId
    have hraised := raised_post (s := s) (.disconnected peer)
      (s.connectedPeers.erase peer.sessionId)
    constructor
    case keyed =>
      intro key peer' hpeer'
      rw [hlookup] at hpeer'
      split at hpeer'
      · cases hpeer'
      · exact hinv.keyed key peer' hpeer'
    case raisedMade =>
      rw [hraised, List.forall_mem_append]
      exact ⟨hinv.raisedMade, List.forall_mem_singleton.mpr hlt⟩
    case once =>
      rw [hraised, List.filter_append]
      exact (List.append_nil _).symm ▸ hinv.once
    case alternates =>
      rw [hraised]
      refine alternates_append hinv.alternates fun hclosed => ?_
      have hopen := (hinv.last peer.sessionId).mpr
        ⟨peer, hpeer, List.mem_append_left _ hguard⟩
      cases hopen.symm.trans hclosed
    case last =>
      intro key
      rw [hraised, hlookup]
      rcases eq_or_ne peer.sessionId key with hown | hown
      · rw [eventsOf_append_own s.raised (e := .disconnected peer) hown,
          isOpen_append_singleton, if_pos hown.symm]
        refine iff_of_false Bool.false_ne_true ?_
        rintro ⟨peer', hpeer', -⟩
        cases hpeer'
      · rw [eventsOf_append_other s.raised (e := .disconnected peer) hown,
          if_neg (Ne.symm hown), hinv.last key]
        refine exists_congr fun peer' => and_congr_right fun _ => ?_
        rw [List.mem_append, List.mem_singleton, or_iff_left PeerEvent.noConfusion]
    case kept =>
      intro peer' hmem
      rcases List.mem_append.mp hmem with hold | hnew
      · have hkept := hinv.kept peer' hold
        rw [hlookup, if_neg, hkept]
        intro heq
        rw [heq] at hkept
        cases hpeer.symm.trans hkept
        exact not_posted hinv hguard hold
      · cases List.mem_singleton.mp hnew

theorem inv_runPosted (hinv : Inv s) (h : s.runPosted = some s') : Inv s' := by
  unfold runPosted at h
  split at h
  case h_1 => cases h
  case h_2 action rest hposted =>
    split at h
    · cases h
    · cases h
      have hraised : raised { s with posted := rest, published := s.published ++ [action] } =
          s.raised := by
        rw [raised, raised, hposted, List.append_assoc]
        rfl
      constructor
      case keyed => exact hinv.keyed
      case raisedMade => rw [hraised]; exact hinv.raisedMade
      case once => rw [hraised]; exact hinv.once
      case alternates => rw [hraised]; exact hinv.alternates
      case last => rw [hraised]; exact hinv.last
      case kept =>
        intro peer hmem
        refine hinv.kept peer ?_
        rw [hposted]
        exact List.mem_cons_of_mem _ hmem

theorem inv_init : Inv init where
  keyed := fun _ _ hpeer => absurd hpeer.symm (Option.some_ne_none _)
  raisedMade := fun _ he => absurd he List.not_mem_nil
  once := List.nodup_nil
  alternates := fun _ => alternates_nil
  last := by
    intro sessionId
    refine iff_of_false Bool.false_ne_true ?_
    rintro ⟨peer, -, hmem⟩
    exact absurd hmem List.not_mem_nil
  kept := fun _ hmem => absurd hmem List.not_mem_nil

end PeersLemmas

open PeersLemmas

variable {s s' : SceneImpl}

/-! ## Results -/

theorem inv_step {a : Action} (hinv : Inv s) (hguard : s.RaisesInTurn a)
    (h : step s a = some s') : Inv s' := by
  cases a with
  | peerConnected sessionId =>
    cases h
    exact inv_peerConnected hinv sessionId
  | raisePeerConnected sessionId =>
    cases h
    exact inv_raisePeerConnected hinv hguard
  | raisePeerDisconnected sessionId =>
    cases h
    exact inv_raisePeerDisconnected hinv hguard
  | onNext i state =>
    obtain ⟨peer, hi, rfl⟩ := Option.map_eq_some_iff.mp h
    cases state with
    | disconnected =>
      have hmay : (s.made[i]?.all fun peer => s.mayDisconnect peer.sessionId) = true := hguard
      rw [hi] at hmay
      exact inv_raisePeerDisconnected hinv hmay
    | connecting | connected | disconnecting => exact hinv
  | disconnect i =>
    obtain ⟨peer, hi, rfl⟩ := Option.map_eq_some_iff.mp h
    have hmay : (s.made[i]?.all fun peer => s.mayDisconnect peer.sessionId) = true := hguard
    rw [hi] at hmay
    exact inv_raisePeerDisconnected hinv hmay
  | runPosted => exact inv_runPosted hinv h

/-- In a run in which a peer's `Connected` is raised once, and its `Disconnected` after the
dispatcher has published the `Connected`, a posted action uses an entry of the table and the
events of each peer alternate. -/
theorem peerEvents_alternate (h : Lts.Reachable step RaisesInTurn init s) :
    s.UsesEntry ∧ ∀ sessionId, s.EventsAlternate sessionId := by
  have hinv : Inv s :=
    h.invariant inv_init fun _ _ _ hinv hguard hs => inv_step hinv hguard hs
  constructor
  · intro action haction
    cases action with
    | connected it =>
      exact decide_eq_false (not_not_intro (hinv.kept it (List.mem_of_mem_head? haction)))
    | disconnected peer => rfl
  · intro sessionId
    have hall := hinv.alternates sessionId
    rw [raised, eventsOf, List.filter_append] at hall
    exact hall.left_of_append

/-- A peer connects, disconnects and connects again. -/
def reconnection : List Action :=
  [.peerConnected ['a'], .raisePeerConnected ['a'], .runPosted, .onNext 0 .disconnected,
    .peerConnected ['a'], .raisePeerConnected ['a'], .runPosted]

theorem peerEvents_alternate_reconnection :
    ∃ s : SceneImpl, s.published = [.connected ⟨0, ['a']⟩, .disconnected ⟨0, ['a']⟩] ∧
      s.posted = [.connected ⟨1, ['a']⟩] ∧
      s.UsesEntry ∧ ∀ sessionId, s.EventsAlternate sessionId := by
  obtain ⟨s, hs, hp⟩ := Lts.Reachable.of_exec step RaisesInTurn init reconnection
    (fun s => decide (s.published = [.connected ⟨0, ['a']⟩, .disconnected ⟨0, ['a']⟩] ∧
      s.posted = [.connected ⟨1, ['a']⟩])) (by decide +kernel)
  obtain ⟨hpublished, hposted⟩ := of_decide_eq_true hp
  exact ⟨s, hpublished, hposted, peerEvents_alternate hs⟩

/-- A peer disconnects before its `Connected` action has run. -/
def disconnectsFirst : List Action :=
  [.peerConnected ['a'], .raisePeerConnected ['a'], .onNext 0 .disconnected]

/-- A peer disconnects before its `Connected` is raised. -/
def neverConnects : List Action :=
  [.peerConnected ['a'], .disconnect 0, .runPosted]

theorem disconnected_early :
    (¬ ∀ s, Lts.Reachable step Lts.anyStep init s → s.UsesEntry) ∧
      ¬ ∀ s, Lts.Reachable step Lts.anyStep init s → ∀ sessionId, s.EventsAlternate sessionId := by
  constructor
  · intro hclaim
    obtain ⟨s, hs, hp⟩ := Lts.Reachable.of_exec step Lts.anyStep init disconnectsFirst
      (fun s => s.posted.head?.any s.dangles) (by decide +kernel)
    obtain ⟨action, haction, hdangles⟩ := (Option.any_eq_true _ _).mp hp
    rw [hclaim s hs action haction] at hdangles
    cases hdangles
  · intro hclaim
    obtain ⟨s, hs, hp⟩ := Lts.Reachable.of_exec step Lts.anyStep init neverConnects
      (fun s => decide (s.published = [.disconnected ⟨0, ['a']⟩])) (by decide +kernel)
    have halternate := hclaim s hs ['a']
    rw [EventsAlternate, of_decide_eq_true hp] at halternate
    exact absurd halternate (by decide)

end SceneImpl

end Stormancer.Scene.Peers
