import Stormancer.Lib.Chronicle
import Stormancer.P2P.TunnelData
import Stormancer.P2P.Tunnels

/-!
# What goes through the tunnels

The two peers with their tables and the messages between them, and the datagrams of the games: a game
sends one to the socket of a tunnel, the peer sends it to the other one in an unreliable message, and
the other peer sends it on from the socket that its table has under the handle, to the host port of
this client. A datagram may be late or lost. Tunnels are opened and closed meanwhile.

The socket of a client gives no datagram before the client is in the table and none after it was
erased. The connection between the peers may be closed when a datagram comes in.

Results:
1. `datagrams_kept`: over every run in which `addClient` takes a handle that is in use nowhere, also
   by no datagram, what comes out of a tunnel was sent into the same tunnel by the other peer, comes
   out once, and goes to the port that the game of this side has sent from last.
-/

namespace Stormancer.P2P.TunnelTraffic

open Streams (Machine)
open Tunnels (Peer Network)
open TunnelData (RNS2RecvStruct idP2pTunnel)

/-! ## Data -/

/-- What does not change in a run. -/
structure Peers where
  machine : Peer → Machine
  hasPublicIp : Peer → Bool
  /-- The id of the connection of a peer to the other one. -/
  connectionId : Peer → UInt64
  /-- `_config->serverGamePort`. -/
  serverGamePort : Peer → UInt16
  /-- The handle before it is read. -/
  uninitialized : UInt8

inductive Event
  /-- The game of the peer has sent a datagram to a tunnel. -/
  | sent (peer : Peer) (tunnel : Nat) (port : UInt16) (data : List UInt8)
  /-- The peer has sent a datagram to its game. It is the one that was sent in the event of the
  number. -/
  | delivered (number : Nat) (peer : Peer) (serverSide : Bool) (tunnel : Nat) (port : UInt16)
      (data : List UInt8)
deriving DecidableEq

/-- A datagram on its way, with the number of the event in which it was sent. -/
structure Datagram where
  number : Nat
  /-- The peer that it goes to. -/
  peer : Peer
  message : List UInt8
deriving DecidableEq

structure Traffic where
  network : Network
  /-- What has been written to the host port of the client that a peer has for a tunnel. -/
  hostPort : Peer → Nat → Option UInt16
  inFlight : List Datagram
  /-- Oldest first. -/
  log : List Event

inductive Action
  | network (a : Network.Action)
  /-- The socket of a tunnel gives a datagram. -/
  | onMsgReceived (p : Peer) (handle : UInt8) (isConnected : Bool) (recvStruct : RNS2RecvStruct)
  /-- A datagram arrives at the other peer. -/
  | receiveFrom (i : Nat)
  | lose (i : Nat)

/-! ## The code -/

variable (c : Peers)

def init : Traffic := ⟨Network.init c.hasPublicIp, fun _ _ => none, [], []⟩

/-- The host port of a client: `addClient` sets it to the port of the server. -/
def Traffic.port (s : Traffic) (p : Peer) (e : Tunnels.P2PTunnelClient) : UInt16 :=
  (s.hostPort p e.tunnel).getD (if e.serverSide then c.serverGamePort p else 0)

/-- The client of an entry. -/
def Traffic.client (s : Traffic) (p : Peer) (handle : UInt8) (e : Tunnels.P2PTunnelClient) :
    TunnelData.P2PTunnelClient :=
  ⟨c.connectionId p, handle, s.port c p e, true⟩

/-- `_tunnels` of a peer. -/
def Traffic.tunnels (s : Traffic) (p : Peer) : TunnelData.Tunnels :=
  (s.network.peers p).tunnels.entries.foldr
    (fun e t => t.insert (c.connectionId p, e.1) (some (s.client c p e.1 e.2))) ∅

def Traffic.onMsgReceived (s : Traffic) (p : Peer) (handle : UInt8) (isConnected : Bool)
    (recvStruct : RNS2RecvStruct) (e : Tunnels.P2PTunnelClient) : Traffic :=
  match TunnelData.onMsgReceived (c.machine p) (fun _ => isConnected) (s.client c p handle e)
    recvStruct with
  | (client, some message) =>
    { s with
      hostPort := Function.update s.hostPort p
        (Function.update (s.hostPort p) e.tunnel (some client.hostPort))
      inFlight := s.inFlight ++ [⟨s.log.length, p.other, message⟩]
      log := s.log ++ [.sent p e.tunnel recvStruct.port recvStruct.data] }
  | (_, none) => s

/-- The message of a datagram is dispatched. -/
def Traffic.receiveFrom (s : Traffic) (d : Datagram) : Traffic :=
  match (TunnelData.dispatch (c.machine d.peer) (s.tunnels c d.peer) (c.connectionId d.peer)
    d.message c.uninitialized).1 with
  | some (client, data) =>
    match (s.network.peers d.peer).tunnels.lookup client.handle with
    | some e =>
      { s with
        log := s.log ++ [.delivered d.number d.peer e.serverSide e.tunnel client.hostPort data] }
    | none => s
  | none => s

def step (s : Traffic) : Action → Option Traffic
  | .network a => (s.network.step a).map fun network => { s with network := network }
  | .onMsgReceived p handle isConnected recvStruct =>
    ((s.network.peers p).tunnels.lookup handle).map
      (s.onMsgReceived c p handle isConnected recvStruct)
  | .receiveFrom i =>
    s.inFlight[i]?.map fun d => Traffic.receiveFrom c { s with inFlight := s.inFlight.eraseIdx i } d
  | .lose i => s.inFlight[i]?.map fun _ => { s with inFlight := s.inFlight.eraseIdx i }

/-! ## The condition -/

/-- No datagram with the handle is on its way. -/
def Traffic.vacant (s : Traffic) (handle : UInt8) : Bool :=
  s.inFlight.all fun d => decide (d.message[1]? ≠ some handle)

/-- The handle that the step makes `addClient` take, if it does, is in use nowhere, also by no
datagram. -/
def picksUnused (s : Traffic) : Action → Bool
  | .network a =>
    s.network.picksUnused a &&
      match a with
      | .deliver i =>
        match s.network.inFlight[i]? with
        | some (p, .openTunnel _ serverId) =>
          ((s.network.peers p).takenHandle serverId).all s.vacant
        | _ => true
      | _ => true
  | _ => true

abbrev PicksUnused (s : Traffic) (a : Action) : Prop := picksUnused s a = true

/-! ## The property -/

/-- The ports from which the game of the peer has sent to the tunnel. -/
def ports (log : List Event) (p : Peer) (tunnel : Nat) : List UInt16 :=
  log.filterMap fun
    | .sent q tunnel' port _ => if q = p ∧ tunnel' = tunnel then some port else none
    | .delivered .. => none

/-- The events in which the datagram of the number was delivered. -/
def Event.number : Event → Option Nat
  | .sent .. => none
  | .delivered number .. => some number

/-- What is delivered was sent to the same tunnel at the other peer, was not delivered before, and
goes to the last port of the game, or at first to the one of the server. -/
def Explained (before : List Event) : Event → Prop
  | .sent .. => True
  | .delivered number p serverSide tunnel port data =>
    (∃ port', before[number]? = some (.sent p.other tunnel port' data)) ∧
      (∀ e ∈ before, e.number ≠ some number) ∧
      port = (ports before p tunnel).getLast?.getD (if serverSide then c.serverGamePort p else 0)

/-! ## The invariant -/

/-- A datagram on its way was sent, and its handle is used by its tunnel alone. -/
structure DatagramOk (s : Traffic) (d : Datagram) : Prop where
  sent : ∃ handle tunnel port, ∃ data : List UInt8,
    s.log[d.number]? = some (.sent d.peer.other tunnel port data) ∧
      d.message = idP2pTunnel :: handle :: data ∧ data.length ≤ 1464 ∧
      ∀ tunnel', s.network.Uses handle tunnel' → tunnel' = tunnel
  once : ∀ e ∈ s.log, e.number ≠ some d.number

structure Inv (s : Traffic) : Prop where
  network : Network.Inv s.network
  datagrams : ∀ d ∈ s.inFlight, DatagramOk s d
  numbers : (s.inFlight.map Datagram.number).Nodup
  hostPort : ∀ p tunnel, s.hostPort p tunnel = (ports s.log p tunnel).getLast?
  log : Chronicle (Explained c) s.log

namespace TunnelTrafficLemmas

/-! ## What uses a handle -/

section Network

open Tunnels.Network Tunnels.Network.TunnelsLemmas

variable {s s' : Network}

/-- A tunnel is entered. -/
theorem uses_enter {p : Peer} {handle handle' : UInt8} {e : Tunnels.P2PTunnelClient} {tunnel : Nat}
    (h : (s.setPeer p ((s.peers p).enter handle e)).Uses handle' tunnel) :
    s.Uses handle' tunnel ∨ handle' = handle ∧ tunnel = e.tunnel := by
  obtain ⟨q, e', he', rfl⟩ | ⟨q, serverId, hmem⟩ := h
  · rw [lookup_enter] at he'
    split at he'
    · next heq =>
      cases he'
      exact .inr ⟨heq.2, rfl⟩
    · exact .inl (.inl ⟨q, e', he', rfl⟩)
  · exact .inl (.inr ⟨q, serverId, hmem⟩)

theorem less_erase (s : Network) (i : Nat) : Less s { s with inFlight := s.inFlight.eraseIdx i } :=
  ⟨fun _ _ _ he => he, fun _ hm _ => List.mem_of_mem_eraseIdx hm⟩

theorem less_send (hentries : NoneEntered s s') (hinFlight : s'.inFlight = s.inFlight) (p : Peer)
    {m : Tunnels.Message} (hm : m.resultHandle = none) : Less s (s'.send p m) := by
  have hsent : (s'.send p m).inFlight = s.inFlight ++ [(p, m)] := by rw [send, hinFlight]
  exact less_append hentries hsent (List.forall_mem_singleton.mpr hm)

/-- A handle comes into use when `addClient` takes it. -/
theorem uses_deliver {i : Nat} {p : Peer} {m : Tunnels.Message}
    (hi : s.inFlight[i]? = some (p, m)) {handle : UInt8} {tunnel : Nat}
    (h : (receive { s with inFlight := s.inFlight.eraseIdx i } p m).Uses handle tunnel) :
    s.Uses handle tunnel ∨ ∃ tunnel' serverId, m = .openTunnel tunnel' serverId ∧
      (s.peers p).takenHandle serverId = some handle := by
  have hless := less_erase s i
  cases m with
  | openTunnel tunnel' serverId =>
    rw [receive] at h
    split at h
    · next handle' htaken =>
      have hpeer : (s.peers p).takenHandle serverId = some handle' := htaken
      obtain ⟨q, e, he, rfl⟩ | ⟨q, serverId', hmem⟩ := h
      · rcases uses_enter (.inl ⟨q, e, he, rfl⟩) with hold | ⟨rfl, -⟩
        · exact .inl (hless.uses hold)
        · exact .inr ⟨tunnel', serverId, rfl, hpeer⟩
      · rcases List.mem_append.mp hmem with hold | hnew
        · exact .inl (hless.uses (.inr ⟨q, serverId', hold⟩))
        · cases List.mem_singleton.mp hnew
          exact .inr ⟨_, _, rfl, hpeer⟩
    · exact .inl (hless.uses ((less_send (fun _ _ _ he => he) rfl p.other rfl).uses h))
  | result tunnel' serverId handle' =>
    rcases uses_enter h with hold | ⟨rfl, rfl⟩
    · exact .inl (hless.uses hold)
    · exact .inl (.inr ⟨p, serverId, List.mem_of_getElem? hi⟩)
  | noTunnel tunnel' => exact .inl (hless.uses h)
  | closeTunnel handle' =>
    have hentries : Less { s with inFlight := s.inFlight.eraseIdx i }
        (receive { s with inFlight := s.inFlight.eraseIdx i } p (.closeTunnel handle')) :=
      ⟨noneEntered_erase p handle', fun _ hm _ => hm⟩
    exact .inl (hless.uses (hentries.uses h))

theorem uses_step {a : Network.Action} (hstep : s.step a = some s') {handle : UInt8} {tunnel : Nat}
    (h : s'.Uses handle tunnel) :
    s.Uses handle tunnel ∨ ∃ i p tunnel' serverId, a = .deliver i ∧
      s.inFlight[i]? = some (p, .openTunnel tunnel' serverId) ∧
      (s.peers p).takenHandle serverId = some handle := by
  cases a with
  | createServer p serverId =>
    cases hstep
    have hless : Less s (s.setPeer p { s.peers p with servers := serverId :: (s.peers p).servers }) :=
      ⟨noneEntered_setPeer fun _ _ he => he, fun _ hm _ => hm⟩
    exact .inl (hless.uses h)
  | openTunnel p serverId =>
    cases hstep
    exact .inl ((less_send (fun _ _ _ he => he) rfl p.other rfl).uses h)
  | deliver i =>
    obtain ⟨⟨p, m⟩, hi, rfl⟩ := Option.map_eq_some_iff.mp hstep
    rcases uses_deliver hi h with hold | ⟨tunnel', serverId, rfl, htaken⟩
    · exact .inl hold
    · exact .inr ⟨i, p, tunnel', serverId, rfl, hi, htaken⟩
  | drop i =>
    obtain ⟨m, -, rfl⟩ := Option.map_eq_some_iff.mp hstep
    exact .inl ((less_erase s i).uses h)
  | destroyTunnel p handle' =>
    cases hstep
    unfold destroyTunnel at h
    split at h
    · exact .inl ((less_send (noneEntered_erase p handle') rfl p.other rfl).uses h)
    · exact .inl h
  | destroyServer p serverId =>
    cases hstep
    refine .inl ((less_append (noneEntered_destroyServer p serverId) rfl fun m hm => ?_).uses h)
    obtain ⟨handle', -, rfl⟩ := List.mem_map.mp hm
    rfl

end Network

/-! ## What the code does with a datagram -/

section Data

open TunnelData Streams.IByteStream Streams.IByteStream.IByteStreamLemmas
open Streams.ByteStreamBuf.PointersLemmas

variable {c : Peers} {s : Traffic}

theorem lookup_tunnels (s : Traffic) (p : Peer) (handle : UInt8) :
    (s.tunnels c p).lookup (c.connectionId p, handle) =
      ((s.network.peers p).tunnels.lookup handle).map fun e => some (s.client c p handle e) := by
  have hentries : ∀ l : List (Sigma fun _ : UInt8 => Tunnels.P2PTunnelClient),
      (l.foldr (fun e t => t.insert (c.connectionId p, e.1) (some (s.client c p e.1 e.2)))
          (∅ : TunnelData.Tunnels)).lookup (c.connectionId p, handle) =
        (l.dlookup handle).map fun e => some (s.client c p handle e) := by
    intro l
    induction l with
    | nil => rfl
    | cons e l ih =>
      obtain ⟨handle', e⟩ := e
      rw [List.foldr_cons, Slots.Table.lookup_insert_eq]
      rcases eq_or_ne handle handle' with rfl | hne
      · rw [if_pos rfl, List.dlookup_cons_eq]
        rfl
      · rw [if_neg fun h => hne (congrArg Prod.snd h), List.dlookup_cons_ne _ _ hne, ih]
  exact hentries _

/-- A datagram for a handle that the table does not have is dropped. -/
theorem dispatch_none {tunnels : TunnelData.Tunnels} {id : UInt64} {handle : UInt8}
    (hentry : tunnels.lookup (id, handle) = none) (m : Machine) (data : List UInt8)
    (handle₀ : UInt8) :
    (dispatch m tunnels id (idP2pTunnel :: handle :: data) handle₀).1 = none := by
  have hi : (ofBytes (idP2pTunnel :: handle :: data)).buffer.Inv := inv_create _ false
  have hunread : (ofBytes (idP2pTunnel :: handle :: data)).unread =
      (Streams.Fixed.uint8 idP2pTunnel).memory m.order ++ handle :: data := by
    rw [unread_ofBytes, Streams.Fixed.memory_uint8]
    rfl
  obtain ⟨htype, hgood, hrest⟩ := deserialize_of_unread hi rfl
    (show (Streams.Fixed.uint8 0).type = (Streams.Fixed.uint8 idP2pTunnel).type from rfl) hunread
  have hi' := (reading_deserialize m.order hi (.uint8 0)).inv
  obtain ⟨-, hbytes, -, -⟩ := read_spec hi' hgood 1
  rw [hrest] at hbytes
  unfold dispatch
  dsimp only
  rw [if_pos htype]
  unfold receiveFrom
  dsimp only
  rw [show (((ofBytes (idP2pTunnel :: handle :: data)).deserialize m.order (.uint8 0)).2.read
    1).1.headD handle₀ = handle from congrArg (·.headD handle₀) hbytes, hentry]

/-- The datagram goes out of the socket of the entry under its handle. -/
theorem receiveFrom_eq {d : Datagram} {handle : UInt8} {data : List UInt8}
    (hmessage : d.message = idP2pTunnel :: handle :: data) (hfits : data.length ≤ 1464) :
    s.receiveFrom c d =
      match (s.network.peers d.peer).tunnels.lookup handle with
      | some e =>
        { s with
          log := s.log ++
            [.delivered d.number d.peer e.serverSide e.tunnel (s.port c d.peer e) data] }
      | none => s := by
  have hlookup := lookup_tunnels (c := c) s d.peer handle
  unfold Traffic.receiveFrom
  rw [hmessage]
  cases he : (s.network.peers d.peer).tunnels.lookup handle with
  | none =>
    rw [he] at hlookup
    rw [dispatch_none hlookup]
  | some e =>
    rw [he] at hlookup
    rw [dispatch_eq hlookup rfl, List.take_of_length_le hfits]
    dsimp only [Traffic.client]
    rw [he]

theorem onMsgReceived_eq (p : Peer) (handle : UInt8) (isConnected : Bool)
    (recvStruct : RNS2RecvStruct) (e : Tunnels.P2PTunnelClient) :
    s.onMsgReceived c p handle isConnected recvStruct e =
      if isConnected then
        { s with
          hostPort := Function.update s.hostPort p
            (Function.update (s.hostPort p) e.tunnel (some recvStruct.port))
          inFlight := s.inFlight ++
            [⟨s.log.length, p.other, idP2pTunnel :: handle :: recvStruct.data⟩]
          log := s.log ++ [.sent p e.tunnel recvStruct.port recvStruct.data] }
      else s := by
  have hle := recvStruct.bytesRead_le
  have hsmall : recvStruct.data.length + 2 < 0x80000000 := by
    unfold maximumMtuSize at hle
    omega
  unfold Traffic.onMsgReceived TunnelData.onMsgReceived
  cases isConnected with
  | false => rfl
  | true =>
    rw [if_pos rfl, if_pos rfl, Traffic.client, message_eq (c.machine p) handle hsmall]

end Data

/-! ## The log -/

section Log

variable {c : Peers} {log : List Event}

theorem ports_snoc (log : List Event) (e : Event) (p : Peer) (tunnel : Nat) :
    ports (log ++ [e]) p tunnel = ports log p tunnel ++ ports [e] p tunnel :=
  List.filterMap_append

/-- A delivered datagram was sent before. -/
theorem number_lt (h : Chronicle (Explained c) log) {e : Event} (he : e ∈ log) {number : Nat}
    (hnumber : e.number = some number) : number < log.length := by
  obtain ⟨before, after, rfl, hexplained⟩ := h.of_mem he
  cases e with
  | sent => cases hnumber
  | delivered number' p serverSide tunnel port data =>
    cases hnumber
    obtain ⟨⟨port', hsent⟩, -⟩ := hexplained
    have hlt := (List.getElem?_eq_some_iff.mp hsent).1
    rw [List.length_append]
    omega

end Log

/-! ## The invariant -/

variable {c : Peers} {s s' : Traffic}

theorem inv_init : Inv c (init c) where
  network := Tunnels.Network.TunnelsLemmas.inv_init c.hasPublicIp
  datagrams := nofun
  numbers := List.nodup_nil
  hostPort _ _ := rfl
  log := Chronicle.nil

theorem number_lt_length {d : Datagram} (h : DatagramOk s d) : d.number < s.log.length := by
  obtain ⟨handle, tunnel, port, data, hsent, -⟩ := h.sent
  exact (List.getElem?_eq_some_iff.mp hsent).1

/-- A datagram is no more on its way. -/
theorem inv_eraseIdx (hi : Inv c s) (i : Nat) :
    Inv c { s with inFlight := s.inFlight.eraseIdx i } where
  network := hi.network
  datagrams d hd := by
    obtain ⟨hsent, honce⟩ := hi.datagrams d (List.mem_of_mem_eraseIdx hd)
    exact ⟨hsent, honce⟩
  numbers := hi.numbers.sublist ((List.eraseIdx_sublist _ _).map _)
  hostPort := hi.hostPort
  log := hi.log

theorem inv_network (hi : Inv c s) {a : Tunnels.Network.Action} {network : Network}
    (hguard : PicksUnused s (.network a)) (h : s.network.step a = some network) :
    Inv c { s with network := network } := by
  obtain ⟨hpicks, hvacant⟩ := Bool.and_eq_true_iff.mp hguard
  refine ⟨Tunnels.Network.inv_step hi.network hpicks h, fun d hd => ?_, hi.numbers, hi.hostPort,
    hi.log⟩
  obtain ⟨⟨handle, tunnel, port, data, hsent, hmessage, hfits, hown⟩, honce⟩ := hi.datagrams d hd
  refine ⟨⟨handle, tunnel, port, data, hsent, hmessage, hfits, fun tunnel' huses => ?_⟩, honce⟩
  rcases uses_step h huses with hold | ⟨i, p, tunnel'', serverId, rfl, hrequest, htaken⟩
  · exact hown tunnel' hold
  · -- The handle that is taken would be the one of a datagram on its way.
    dsimp only at hvacant
    rw [hrequest] at hvacant
    dsimp only at hvacant
    rw [htaken, Option.all_some] at hvacant
    have hother := of_decide_eq_true (List.all_eq_true.mp hvacant d hd)
    rw [hmessage] at hother
    exact absurd rfl hother

theorem inv_sent (hi : Inv c s) {p : Peer} {handle : UInt8} {e : Tunnels.P2PTunnelClient}
    (he : (s.network.peers p).tunnels.lookup handle = some e) (recvStruct : RNS2RecvStruct) :
    Inv c { s with
      hostPort := Function.update s.hostPort p
        (Function.update (s.hostPort p) e.tunnel (some recvStruct.port))
      inFlight := s.inFlight ++
        [⟨s.log.length, p.other, idP2pTunnel :: handle :: recvStruct.data⟩]
      log := s.log ++ [.sent p e.tunnel recvStruct.port recvStruct.data] } where
  network := hi.network
  datagrams d hd := by
    rcases List.mem_append.mp hd with hd | hd
    · obtain ⟨hsent, honce⟩ := hi.datagrams d hd
      have hlt := number_lt_length (hi.datagrams d hd)
      obtain ⟨handle', tunnel, port, data, hlog, hmessage, hfits, hown⟩ := hsent
      refine ⟨⟨handle', tunnel, port, data, ?_, hmessage, hfits, hown⟩, fun e' he' => ?_⟩
      · exact (List.getElem?_append_left hlt).trans hlog
      · rcases List.mem_append.mp he' with hold | hnew
        · exact honce e' hold
        · rw [List.mem_singleton.mp hnew]
          nofun
    · rw [List.mem_singleton.mp hd]
      have hpeer : p.other.other = p := by cases p <;> rfl
      have hle : recvStruct.data.length ≤ 1464 := recvStruct.bytesRead_le.trans (by decide)
      refine ⟨⟨handle, e.tunnel, recvStruct.port, recvStruct.data, ?_, rfl, hle, ?_⟩, ?_⟩
      · dsimp only
        rw [hpeer, List.getElem?_concat_length]
      · intro tunnel' huses
        exact hi.network.one handle tunnel' e.tunnel huses (.inl ⟨p, e, he, rfl⟩)
      · intro e' he' hnumber
        rcases List.mem_append.mp he' with hold | hnew
        · exact absurd (number_lt hi.log hold hnumber) (Nat.lt_irrefl _)
        · rw [List.mem_singleton.mp hnew] at hnumber
          nomatch hnumber
  numbers := by
    rw [List.map_append, List.map_singleton, List.nodup_append]
    refine ⟨hi.numbers, List.nodup_singleton _, ?_⟩
    intro number hnumber number' hnumber'
    obtain ⟨d, hd, rfl⟩ := List.mem_map.mp hnumber
    rw [List.mem_singleton.mp hnumber']
    exact Nat.ne_of_lt (number_lt_length (hi.datagrams d hd))
  hostPort q tunnel := by
    dsimp only
    rw [ports_snoc, Function.update_apply]
    by_cases hq : q = p
    · subst hq
      rw [if_pos rfl, Function.update_apply]
      by_cases ht : tunnel = e.tunnel
      · subst ht
        simp [ports]
      · rw [if_neg ht, hi.hostPort]
        simp [ports, Ne.symm ht]
    · rw [if_neg hq, hi.hostPort]
      simp [ports, Ne.symm hq]
  log := hi.log.snoc trivial

theorem inv_receiveFrom (hi : Inv c s) {i : Nat} {d : Datagram} (hd : s.inFlight[i]? = some d) :
    Inv c (Traffic.receiveFrom c { s with inFlight := s.inFlight.eraseIdx i } d) := by
  obtain ⟨⟨handle, tunnel, port, data, hsent, hmessage, hfits, hown⟩, honce⟩ :=
    hi.datagrams d (List.mem_of_getElem? hd)
  have herased := inv_eraseIdx hi i
  have hothers : ∀ d' ∈ s.inFlight.eraseIdx i, d.number ≠ d'.number := by
    obtain ⟨hlt, rfl⟩ := List.getElem?_eq_some_iff.mp hd
    have hnodup := ((List.getElem_cons_eraseIdx_perm hlt).map Datagram.number).nodup_iff.mpr
      hi.numbers
    rw [List.map_cons, List.nodup_cons] at hnodup
    exact fun d' hd' heq => hnodup.1 (heq ▸ List.mem_map_of_mem hd')
  rw [receiveFrom_eq hmessage hfits]
  dsimp only
  cases he : (s.network.peers d.peer).tunnels.lookup handle with
  | none => exact herased
  | some e =>
    have htunnel : e.tunnel = tunnel := hown e.tunnel (.inl ⟨d.peer, e, he, rfl⟩)
    refine ⟨hi.network, fun d' hd' => ?_, herased.numbers, fun p tunnel' => ?_,
      hi.log.snoc ?_⟩
    · have hok := herased.datagrams d' hd'
      have hlt := number_lt_length hok
      obtain ⟨⟨handle', tunnel', port', data', hlog, hrest⟩, honce'⟩ := hok
      refine ⟨⟨handle', tunnel', port', data', ?_, hrest⟩, fun e' he' => ?_⟩
      · exact (List.getElem?_append_left hlt).trans hlog
      · rcases List.mem_append.mp he' with hold | hnew
        · exact honce' e' hold
        · rw [List.mem_singleton.mp hnew]
          exact fun heq => hothers d' hd' (Option.some.inj heq)
    · dsimp only
      rw [ports_snoc, hi.hostPort]
      exact congrArg List.getLast? (List.append_nil _).symm
    · refine ⟨⟨port, htunnel ▸ hsent⟩, honce, ?_⟩
      unfold Traffic.port
      dsimp only
      rw [hi.hostPort]

theorem inv_step {a : Action} (hi : Inv c s) (hguard : PicksUnused s a)
    (h : step c s a = some s') : Inv c s' := by
  cases a with
  | network a =>
    obtain ⟨network, hstep, rfl⟩ := Option.map_eq_some_iff.mp h
    exact inv_network hi hguard hstep
  | onMsgReceived p handle isConnected recvStruct =>
    obtain ⟨e, he, rfl⟩ := Option.map_eq_some_iff.mp h
    rw [onMsgReceived_eq]
    split
    · exact inv_sent hi he recvStruct
    · exact hi
  | receiveFrom i =>
    obtain ⟨d, hd, rfl⟩ := Option.map_eq_some_iff.mp h
    exact inv_receiveFrom hi hd
  | lose i =>
    obtain ⟨d, -, rfl⟩ := Option.map_eq_some_iff.mp h
    exact inv_eraseIdx hi i

end TunnelTrafficLemmas

open TunnelTrafficLemmas

/-! ## Results -/

/-- Every datagram that a peer has sent to its game, with what happened before. -/
theorem datagrams_kept {c : Peers} {s : Traffic}
    (h : Lts.Reachable (step c) PicksUnused (init c) s) {before after : List Event}
    {number : Nat} {p : Peer} {serverSide : Bool} {tunnel : Nat} {port : UInt16}
    {data : List UInt8}
    (hlog : s.log = before ++ .delivered number p serverSide tunnel port data :: after) :
    (∃ port', before[number]? = some (.sent p.other tunnel port' data)) ∧
      (∀ e ∈ before, e.number ≠ some number) ∧
      port = (ports before p tunnel).getLast?.getD
        (if serverSide then c.serverGamePort p else 0) := by
  have hi : Inv c s := h.invariant inv_init fun _ _ _ hi hg hs => inv_step hi hg hs
  exact hi.log before _ after hlog

def twoPeers : Peers where
  machine _ := ⟨.little, 8⟩
  hasPublicIp _ := false
  connectionId p := if p = .a then 7 else 5
  serverGamePort _ := 7777
  uninitialized := 0

def datagram : RNS2RecvStruct where
  data := [1, 2]
  port := 4000
  bytesRead_pos := by decide
  bytesRead_le := by decide

/-- The first datagram that the game of `a` sends to the server of `b`. -/
theorem datagrams_kept_first : ∃ s : Traffic,
    s.log = [.sent .a 0 4000 [1, 2]] ++ .delivered 0 .b true 0 7777 [1, 2] :: [] ∧
    ∃ port', [Event.sent .a 0 4000 [1, 2]][0]? = some (.sent .a 0 port' [1, 2]) := by
  obtain ⟨s, h, hs⟩ := Lts.Reachable.of_exec (step twoPeers) PicksUnused (init twoPeers)
    ((Tunnels.Network.oneOpen.map Action.network) ++
      [.onMsgReceived .a 0 true datagram, .receiveFrom 0])
    (fun s => s.log = [.sent .a 0 4000 [1, 2], .delivered 0 .b true 0 7777 [1, 2]])
    (by decide +kernel)
  have hlog : s.log = [.sent .a 0 4000 [1, 2]] ++ .delivered 0 .b true 0 7777 [1, 2] :: [] :=
    of_decide_eq_true hs
  exact ⟨s, hlog, (datagrams_kept h hlog).1⟩

end Stormancer.P2P.TunnelTraffic
