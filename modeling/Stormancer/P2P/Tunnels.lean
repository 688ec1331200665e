import Mathlib.Data.List.Perm.Basic
import Mathlib.Logic.Function.Basic
import Stormancer.Lib.Run
import Stormancer.Lib.Slots
import Stormancer.Utilities.StringSplit

/-!
# Tunnels between two peers

A peer opens a tunnel to a server of the other peer with a request. The other peer takes the
first handle that its own table has free (`addClient`) and answers with it, and the first one
enters the tunnel under this handle. Either peer opens and closes tunnels at any time, and the
messages arrive in any order.

The tables hold the entries of the other one of the two peers: the peer of a key is left out. A
tunnel is known by the number of the call of `openTunnel` that it was made for. The sockets and
the data that goes through a tunnel are left out.

Results:
1. `tunnels_kept`: over every run in which `addClient` takes a handle that is in use nowhere, the
   two peers have one tunnel under a handle and no entry is overwritten.
2. `crossing_opens`: both peers open a tunnel at the same time.
-/

namespace Stormancer.P2P.Tunnels

/-! ## Definitions -/

inductive Peer
  | a
  | b
deriving DecidableEq

def Peer.other : Peer → Peer
  | .a => .b
  | .b => .a

structure P2PTunnelClient where
  tunnel : Nat
  serverId : Str
  serverSide : Bool
deriving DecidableEq

structure P2PTunnels where
  servers : List Str
  tunnels : Slots.Table UInt8 P2PTunnelClient
  /-- `_config->hasPublicIp()`. -/
  hasPublicIp : Bool

inductive Message
  /-- `ID_P2P_OPEN_TUNNEL`. -/
  | openTunnel (tunnel : Nat) (serverId : Str)
  /-- An `OpenTunnelResult` with `useTunnel`. -/
  | result (tunnel : Nat) (serverId : Str) (handle : UInt8)
  /-- An `OpenTunnelResult` with an endpoint, or the failure of the request. -/
  | noTunnel (tunnel : Nat)
  /-- `ID_P2P_CLOSE_TUNNEL`. -/
  | closeTunnel (handle : UInt8)
deriving DecidableEq

/-- The handle of an `OpenTunnelResult` with `useTunnel`. -/
def Message.resultHandle : Message → Option UInt8
  | .result _ _ handle => some handle
  | _ => none

structure Network where
  peers : Peer → P2PTunnels
  /-- The messages on their way, with the peer that they go to. -/
  inFlight : List (Peer × Message)
  opened : Nat

namespace P2PTunnels

/-- The handle that `addClient` takes. `none`: it throws. -/
def freeHandle (t : P2PTunnels) (serverId : Str) : Option UInt8 :=
  if serverId ∈ t.servers then
    ((List.range 255).map UInt8.ofNat).find? fun handle => decide (handle ∉ t.tunnels)
  else none

/-- What `ID_P2P_OPEN_TUNNEL` takes a handle for, if it does. -/
def takenHandle (t : P2PTunnels) (serverId : Str) : Option UInt8 :=
  if t.hasPublicIp then none else t.freeHandle serverId

def enter (t : P2PTunnels) (handle : UInt8) (client : P2PTunnelClient) : P2PTunnels :=
  { t with tunnels := t.tunnels.insert handle client }

def erase (t : P2PTunnels) (handle : UInt8) : P2PTunnels :=
  { t with tunnels := t.tunnels.erase handle }

/-- The handles of the tunnels to a server, which `destroyServer` closes. -/
def serverHandles (t : P2PTunnels) (serverId : Str) : List UInt8 :=
  (t.tunnels.entries.filter fun e => decide (e.2.serverId = serverId) && e.2.serverSide).map
    Sigma.fst

end P2PTunnels

namespace Network

def init (hasPublicIp : Peer → Bool) : Network where
  peers := fun p => ⟨[], ∅, hasPublicIp p⟩
  inFlight := []
  opened := 0

def setPeer (s : Network) (p : Peer) (t : P2PTunnels) : Network :=
  { s with peers := Function.update s.peers p t }

def send (s : Network) (p : Peer) (m : Message) : Network :=
  { s with inFlight := s.inFlight ++ [(p, m)] }

/-- The peer `p` receives a message. -/
def receive (s : Network) (p : Peer) : Message → Network
  | .openTunnel tunnel serverId =>
    match (s.peers p).takenHandle serverId with
    | some handle =>
      (s.setPeer p ((s.peers p).enter handle ⟨tunnel, serverId, true⟩)).send p.other
        (.result tunnel serverId handle)
    | none => s.send p.other (.noTunnel tunnel)
  | .result tunnel serverId handle =>
    s.setPeer p ((s.peers p).enter handle ⟨tunnel, serverId, false⟩)
  | .noTunnel _ => s
  | .closeTunnel handle => s.setPeer p ((s.peers p).erase handle)

def destroyTunnel (s : Network) (p : Peer) (handle : UInt8) : Network :=
  if handle ∈ (s.peers p).tunnels then
    (s.setPeer p ((s.peers p).erase handle)).send p.other (.closeTunnel handle)
  else s

def destroyServer (s : Network) (p : Peer) (serverId : Str) : Network :=
  let handles := (s.peers p).serverHandles serverId
  { s.setPeer p (handles.foldl P2PTunnels.erase (s.peers p)) with
    inFlight := s.inFlight ++ handles.map fun handle => (p.other, .closeTunnel handle) }

inductive Action
  | createServer (p : Peer) (serverId : Str)
  | openTunnel (p : Peer) (serverId : Str)
  /-- A message arrives. -/
  | deliver (i : Nat)
  /-- A message is lost, or the request that it answers was canceled. -/
  | drop (i : Nat)
  | destroyTunnel (p : Peer) (handle : UInt8)
  | destroyServer (p : Peer) (serverId : Str)
deriving DecidableEq

def step (s : Network) : Action → Option Network
  | .createServer p serverId =>
    some (s.setPeer p { s.peers p with servers := serverId :: (s.peers p).servers })
  | .openTunnel p serverId =>
    some { s.send p.other (.openTunnel s.opened serverId) with opened := s.opened + 1 }
  | .deliver i =>
    s.inFlight[i]?.map fun m => receive { s with inFlight := s.inFlight.eraseIdx i } m.1 m.2
  | .drop i => s.inFlight[i]?.map fun _ => { s with inFlight := s.inFlight.eraseIdx i }
  | .destroyTunnel p handle => some (s.destroyTunnel p handle)
  | .destroyServer p serverId => some (s.destroyServer p serverId)

/-! ## The condition -/

/-- Neither peer has an entry under the handle, and no result with it is on its way. -/
def unused (s : Network) (handle : UInt8) : Bool :=
  decide (handle ∉ (s.peers .a).tunnels) && decide (handle ∉ (s.peers .b).tunnels) &&
    s.inFlight.all fun m => decide (m.2.resultHandle ≠ some handle)

/-- The handle that the message makes `addClient` take, if it does, is in use nowhere. -/
def mayDeliver (s : Network) (i : Nat) : Bool :=
  match s.inFlight[i]? with
  | some (p, .openTunnel _ serverId) => ((s.peers p).takenHandle serverId).all s.unused
  | _ => true

def picksUnused (s : Network) : Action → Bool
  | .deliver i => s.mayDeliver i
  | _ => true

abbrev PicksUnused (s : Network) (a : Action) : Prop := s.picksUnused a = true

/-! ## The invariant -/

/-- The tunnel has an entry under the handle, or a result with it is on its way. -/
def Uses (s : Network) (handle : UInt8) (tunnel : Nat) : Prop :=
  (∃ p e, (s.peers p).tunnels.lookup handle = some e ∧ e.tunnel = tunnel) ∨
    ∃ p serverId, (p, Message.result tunnel serverId handle) ∈ s.inFlight

/-- Two messages are not results with the same handle. -/
def Apart (m m' : Peer × Message) : Prop :=
  ∀ handle, m.2.resultHandle = some handle → m'.2.resultHandle ≠ some handle

structure Inv (s : Network) : Prop where
  one : ∀ handle tunnel tunnel', s.Uses handle tunnel → s.Uses handle tunnel' →
    tunnel = tunnel'
  vacant : ∀ p tunnel serverId handle, (p, Message.result tunnel serverId handle) ∈ s.inFlight →
    (s.peers p).tunnels.lookup handle = none
  apart : s.inFlight.Pairwise Apart

/-! ## Helpers -/

namespace TunnelsLemmas

variable {s s' : Network}

theorem apart_symm {m m' : Peer × Message} (h : Apart m m') : Apart m' m :=
  fun handle hm' hm => h handle hm hm'

theorem apart_of_none {m m' : Peer × Message} (h : m'.2.resultHandle = none) : Apart m m' := by
  intro handle _ hm'
  rw [h] at hm'
  cases hm'

theorem unused_iff {handle : UInt8} : s.unused handle = true ↔
    (∀ p, (s.peers p).tunnels.lookup handle = none) ∧
      ∀ m ∈ s.inFlight, m.2.resultHandle ≠ some handle := by
  have hpeers : (∀ p, (s.peers p).tunnels.lookup handle = none) ↔
      handle ∉ (s.peers .a).tunnels ∧ handle ∉ (s.peers .b).tunnels := by
    rw [← AList.lookup_eq_none, ← AList.lookup_eq_none]
    constructor
    · exact fun h => ⟨h .a, h .b⟩
    · rintro ⟨ha, hb⟩ p
      cases p with
      | a => exact ha
      | b => exact hb
  rw [unused, hpeers, Bool.and_eq_true, Bool.and_eq_true, decide_eq_true_eq, decide_eq_true_eq,
    List.all_eq_true]
  simp only [decide_eq_true_eq]

theorem freeHandle_free {t : P2PTunnels} {serverId : Str} {handle : UInt8}
    (h : t.freeHandle serverId = some handle) : t.tunnels.lookup handle = none := by
  unfold P2PTunnels.freeHandle at h
  split at h
  · exact AList.lookup_eq_none.mpr (of_decide_eq_true (List.find?_some h :))
  · cases h

theorem takenHandle_free {t : P2PTunnels} {serverId : Str} {handle : UInt8}
    (h : t.takenHandle serverId = some handle) : t.tunnels.lookup handle = none := by
  unfold P2PTunnels.takenHandle at h
  split at h
  · cases h
  · exact freeHandle_free h

theorem lookup_setPeer (p q : Peer) (t : P2PTunnels) (handle : UInt8) :
    ((s.setPeer p t).peers q).tunnels.lookup handle =
      if q = p then t.tunnels.lookup handle else (s.peers q).tunnels.lookup handle := by
  rw [setPeer]
  dsimp only
  rw [Function.update_apply]
  split <;> rfl

theorem lookup_enter (p q : Peer) (handle handle' : UInt8) (e : P2PTunnelClient) :
    ((s.setPeer p ((s.peers p).enter handle e)).peers q).tunnels.lookup handle' =
      if q = p ∧ handle' = handle then some e else (s.peers q).tunnels.lookup handle' := by
  rw [lookup_setPeer, P2PTunnels.enter, Slots.Table.lookup_insert_eq]
  rcases eq_or_ne q p with rfl | hq
  · simp
  · simp [hq]

theorem lookup_erase {t : P2PTunnels} {handle handle' : UInt8} {e : P2PTunnelClient}
    (h : (t.erase handle).tunnels.lookup handle' = some e) :
    t.tunnels.lookup handle' = some e := by
  rw [P2PTunnels.erase, Slots.Table.lookup_erase_eq] at h
  split at h
  · cases h
  · exact h

theorem lookup_erases {handles : List UInt8} {t : P2PTunnels} {handle : UInt8}
    {e : P2PTunnelClient}
    (h : (handles.foldl P2PTunnels.erase t).tunnels.lookup handle = some e) :
    t.tunnels.lookup handle = some e := by
  induction handles generalizing t with
  | nil => exact h
  | cons first handles ih => exact lookup_erase (ih h)

/-! ### The steps -/

/-- The step enters nothing. -/
def NoneEntered (s s' : Network) : Prop :=
  ∀ p handle e, (s'.peers p).tunnels.lookup handle = some e →
    (s.peers p).tunnels.lookup handle = some e

theorem noneEntered_setPeer {p : Peer} {t : P2PTunnels}
    (h : ∀ handle e, t.tunnels.lookup handle = some e →
      (s.peers p).tunnels.lookup handle = some e) : NoneEntered s (s.setPeer p t) := by
  intro q handle e he
  rw [lookup_setPeer] at he
  split at he
  · next heq =>
    subst heq
    exact h handle e he
  · exact he

theorem noneEntered_erase (p : Peer) (handle : UInt8) :
    NoneEntered s (s.setPeer p ((s.peers p).erase handle)) :=
  noneEntered_setPeer fun _ _ => lookup_erase

theorem noneEntered_destroyTunnel (p : Peer) (handle : UInt8) :
    NoneEntered s (s.destroyTunnel p handle) := by
  unfold destroyTunnel
  split
  · exact noneEntered_erase p handle
  · exact fun _ _ _ he => he

theorem noneEntered_destroyServer (p : Peer) (serverId : Str) :
    NoneEntered s (s.destroyServer p serverId) :=
  noneEntered_setPeer fun _ _ => lookup_erases

/-- The step enters nothing and sends no result. -/
structure Less (s s' : Network) : Prop where
  entries : NoneEntered s s'
  results : ∀ m ∈ s'.inFlight, m.2.resultHandle ≠ none → m ∈ s.inFlight

theorem Less.uses (h : Less s s') {handle : UInt8} {tunnel : Nat} (huses : s'.Uses handle tunnel) :
    s.Uses handle tunnel := by
  rcases huses with ⟨p, e, he, htunnel⟩ | ⟨p, serverId, hmem⟩
  · exact .inl ⟨p, e, h.entries p handle e he, htunnel⟩
  · exact .inr ⟨p, serverId, h.results _ hmem (Option.some_ne_none handle)⟩

theorem Less.inv (h : Less s s') (hinv : Inv s) (hapart : s'.inFlight.Pairwise Apart) :
    Inv s' where
  one := fun handle _ _ hu hu' => hinv.one handle _ _ (h.uses hu) (h.uses hu')
  vacant := by
    intro p tunnel serverId handle hmem
    have hnone := hinv.vacant p tunnel serverId handle
      (h.results _ hmem (Option.some_ne_none handle))
    cases he : (s'.peers p).tunnels.lookup handle with
    | none => rfl
    | some e =>
      have hsome := h.entries p handle e he
      rw [hnone] at hsome
      cases hsome
  apart := hapart

/-- Messages that are no results are sent. -/
theorem apart_append {new : List (Peer × Message)} (h : s.inFlight.Pairwise Apart)
    (hnew : ∀ m ∈ new, m.2.resultHandle = none) : (s.inFlight ++ new).Pairwise Apart := by
  rw [List.pairwise_append]
  refine ⟨h, List.pairwise_of_forall_mem_list fun _ _ m' hm' => apart_of_none (hnew m' hm'),
    fun _ _ m' hm' => apart_of_none (hnew m' hm')⟩

theorem less_append {new : List (Peer × Message)}
    (hentries : NoneEntered s s')
    (hinFlight : s'.inFlight = s.inFlight ++ new) (hnew : ∀ m ∈ new, m.2.resultHandle = none) :
    Less s s' where
  entries := hentries
  results := by
    intro m hm hresult
    rw [hinFlight] at hm
    exact (List.mem_append.mp hm).resolve_right fun hmem => hresult (hnew m hmem)

/-- Entries are erased, and nothing is sent. -/
theorem inv_of_entries (hinv : Inv s) (hentries : NoneEntered s s')
    (hinFlight : s'.inFlight = s.inFlight) : Inv s' := by
  have hless : Less s s' := ⟨hentries, fun m hm _ => hinFlight ▸ hm⟩
  exact hless.inv hinv (hinFlight ▸ hinv.apart)

/-- Entries are erased, and messages that are no results are sent. -/
theorem inv_append {new : List (Peer × Message)} (hinv : Inv s)
    (hentries : NoneEntered s s')
    (hinFlight : s'.inFlight = s.inFlight ++ new) (hnew : ∀ m ∈ new, m.2.resultHandle = none) :
    Inv s' := by
  refine (less_append hentries hinFlight hnew).inv hinv ?_
  rw [hinFlight]
  exact apart_append hinv.apart hnew

theorem inv_eraseIdx (hinv : Inv s) (i : Nat) :
    Inv { s with inFlight := s.inFlight.eraseIdx i } := by
  have hless : Less s { s with inFlight := s.inFlight.eraseIdx i } :=
    ⟨fun _ _ _ he => he, fun _ hm _ => List.mem_of_mem_eraseIdx hm⟩
  exact hless.inv hinv (hinv.apart.sublist (List.eraseIdx_sublist _ _))

/-- A result that arrives was the only one with its handle. -/
theorem apart_of_delivered (hinv : Inv s) {i : Nat} {m : Peer × Message}
    (hi : s.inFlight[i]? = some m) : ∀ m' ∈ s.inFlight.eraseIdx i, Apart m m' := by
  obtain ⟨hlt, rfl⟩ := List.getElem?_eq_some_iff.mp hi
  have hperm := List.getElem_cons_eraseIdx_perm hlt
  have hpairwise := (hperm.pairwise_iff fun {_ _} => apart_symm).mpr hinv.apart
  exact (List.pairwise_cons.mp hpairwise).1

/-- A tunnel is entered under a handle that is its own, and no result with the handle is on its
way. -/
theorem inv_enter (hinv : Inv s) (p : Peer) {handle : UInt8} {e : P2PTunnelClient}
    (hown : ∀ tunnel, s.Uses handle tunnel → tunnel = e.tunnel)
    (hresults : ∀ m ∈ s.inFlight, m.2.resultHandle ≠ some handle) :
    Inv (s.setPeer p ((s.peers p).enter handle e)) := by
  have huses : ∀ {handle' tunnel},
      (s.setPeer p ((s.peers p).enter handle e)).Uses handle' tunnel →
        s.Uses handle' tunnel ∨ handle' = handle ∧ tunnel = e.tunnel := by
    rintro handle' tunnel (⟨q, e', he', rfl⟩ | ⟨q, serverId, hmem⟩)
    · rw [lookup_enter] at he'
      split at he'
      · next heq =>
        cases he'
        exact .inr ⟨heq.2, rfl⟩
      · exact .inl (.inl ⟨q, e', he', rfl⟩)
    · exact .inl (.inr ⟨q, serverId, hmem⟩)
  constructor
  case one =>
    intro handle' tunnel tunnel' hu hu'
    rcases huses hu with hold | ⟨rfl, rfl⟩
    · rcases huses hu' with hold' | ⟨rfl, rfl⟩
      · exact hinv.one handle' tunnel tunnel' hold hold'
      · exact hown tunnel hold
    · rcases huses hu' with hold' | ⟨-, rfl⟩
      · exact (hown tunnel' hold').symm
      · rfl
  case vacant =>
    intro q tunnel serverId handle' hmem
    rw [lookup_enter]
    split
    · next heq =>
      obtain ⟨-, rfl⟩ := heq
      exact absurd rfl (hresults _ hmem)
    · exact hinv.vacant q tunnel serverId handle' hmem
  case apart => exact hinv.apart

/-- `addClient` takes a handle that is in use nowhere. -/
theorem inv_take (hinv : Inv s) (p : Peer) {handle : UInt8} (hunused : s.unused handle = true)
    (tunnel : Nat) (serverId : Str) :
    Inv ((s.setPeer p ((s.peers p).enter handle ⟨tunnel, serverId, true⟩)).send p.other
      (.result tunnel serverId handle)) := by
  obtain ⟨hvacant, hresults⟩ := unused_iff.mp hunused
  have hnone : ∀ tunnel', ¬ s.Uses handle tunnel' := by
    rintro tunnel' (⟨q, e, he, -⟩ | ⟨q, serverId', hmem⟩)
    · rw [hvacant q] at he
      cases he
    · exact hresults _ hmem rfl
  have henter := inv_enter hinv p (e := ⟨tunnel, serverId, true⟩)
    (fun tunnel' hu => absurd hu (hnone tunnel')) hresults
  have hne : p.other ≠ p := by cases p <;> exact Peer.noConfusion
  have huses : ∀ {handle' tunnel'},
      ((s.setPeer p ((s.peers p).enter handle ⟨tunnel, serverId, true⟩)).send p.other
        (.result tunnel serverId handle)).Uses handle' tunnel' →
      (s.setPeer p ((s.peers p).enter handle ⟨tunnel, serverId, true⟩)).Uses handle' tunnel' := by
    rintro handle' tunnel' (hentry | ⟨q, serverId', hmem⟩)
    · exact .inl hentry
    · rcases List.mem_append.mp hmem with hmem | hnew
      · exact .inr ⟨q, serverId', hmem⟩
      · cases List.mem_singleton.mp hnew
        exact .inl ⟨p, _, by rw [lookup_enter, if_pos ⟨rfl, rfl⟩], rfl⟩
  constructor
  case one => exact fun handle' _ _ hu hu' => henter.one handle' _ _ (huses hu) (huses hu')
  case vacant =>
    intro q tunnel' serverId' handle' hmem
    rcases List.mem_append.mp hmem with hmem | hnew
    · exact henter.vacant q tunnel' serverId' handle' hmem
    · cases List.mem_singleton.mp hnew
      show ((s.setPeer p _).peers p.other).tunnels.lookup handle = none
      rw [lookup_enter, if_neg fun heq => hne heq.1]
      exact hvacant p.other
  case apart =>
    show (s.inFlight ++ [_]).Pairwise Apart
    rw [List.pairwise_append]
    refine ⟨hinv.apart, List.pairwise_singleton _ _, fun m hm m' hm' handle' hhandle => ?_⟩
    rw [List.mem_singleton.mp hm']
    rintro heq
    cases heq
    exact hresults m hm hhandle

/-- What a message does when it arrives, after it was taken from those on their way. -/
theorem inv_receive (hinv : Inv s) (p : Peer) {m : Message}
    (hopen : ∀ tunnel serverId handle, m = .openTunnel tunnel serverId →
      (s.peers p).takenHandle serverId = some handle → s.unused handle = true)
    (hresult : ∀ tunnel serverId handle, m = .result tunnel serverId handle →
      (∀ tunnel', s.Uses handle tunnel' → tunnel' = tunnel) ∧
        ∀ m' ∈ s.inFlight, m'.2.resultHandle ≠ some handle) :
    Inv (s.receive p m) := by
  cases m with
  | openTunnel tunnel serverId =>
    rw [receive]
    split
    · next handle htaken =>
      exact inv_take hinv p (hopen tunnel serverId handle rfl htaken) tunnel serverId
    · exact inv_append hinv (fun _ _ _ he => he) rfl (List.forall_mem_singleton.mpr rfl)
  | result tunnel serverId handle =>
    obtain ⟨hown, hnone⟩ := hresult tunnel serverId handle rfl
    exact inv_enter hinv p hown hnone
  | noTunnel tunnel => exact hinv
  | closeTunnel handle =>
    exact inv_of_entries hinv (noneEntered_erase p handle) rfl

theorem inv_deliver (hinv : Inv s) {i : Nat} {p : Peer} {m : Message}
    (hi : s.inFlight[i]? = some (p, m)) (hguard : s.mayDeliver i = true) :
    Inv (receive { s with inFlight := s.inFlight.eraseIdx i } p m) := by
  have hless : Less s { s with inFlight := s.inFlight.eraseIdx i } :=
    ⟨fun _ _ _ he => he, fun _ hm _ => List.mem_of_mem_eraseIdx hm⟩
  refine inv_receive (inv_eraseIdx hinv i) p ?_ ?_
  · rintro tunnel serverId handle rfl htaken
    rw [mayDeliver, hi] at hguard
    have hall : ((s.peers p).takenHandle serverId).all s.unused = true := hguard
    have htaken' : (s.peers p).takenHandle serverId = some handle := htaken
    rw [htaken'] at hall
    obtain ⟨hvacant, hresults⟩ := unused_iff.mp hall
    exact unused_iff.mpr ⟨hvacant, fun m' hm' => hresults m' (List.mem_of_mem_eraseIdx hm')⟩
  · rintro tunnel serverId handle rfl
    refine ⟨fun tunnel' hu => ?_, fun m' hm' => ?_⟩
    · exact hinv.one handle tunnel' tunnel (hless.uses hu)
        (.inr ⟨p, serverId, List.mem_of_getElem? hi⟩)
    · exact apart_of_delivered hinv hi m' hm' handle rfl

theorem inv_destroyTunnel (hinv : Inv s) (p : Peer) (handle : UInt8) :
    Inv (s.destroyTunnel p handle) := by
  have hentries := noneEntered_destroyTunnel (s := s) p handle
  unfold destroyTunnel at hentries ⊢
  split at hentries
  · next hmem =>
    rw [if_pos hmem]
    exact inv_append hinv hentries rfl (List.forall_mem_singleton.mpr rfl)
  · next hmem =>
    rw [if_neg hmem]
    exact hinv

theorem inv_destroyServer (hinv : Inv s) (p : Peer) (serverId : Str) :
    Inv (s.destroyServer p serverId) := by
  refine inv_append hinv (noneEntered_destroyServer p serverId) rfl fun m hm => ?_
  obtain ⟨handle, -, rfl⟩ := List.mem_map.mp hm
  rfl

theorem inv_init (hasPublicIp : Peer → Bool) : Inv (init hasPublicIp) where
  one := by
    rintro handle tunnel tunnel' (⟨p, e, he, -⟩ | ⟨p, serverId, hmem⟩)
    · exact absurd he.symm (Option.some_ne_none e)
    · exact absurd hmem List.not_mem_nil
  vacant := fun _ _ _ _ hmem => absurd hmem List.not_mem_nil
  apart := List.Pairwise.nil

end TunnelsLemmas

open TunnelsLemmas

variable {s s' : Network}

/-! ## Results -/

theorem inv_step {a : Action} (hinv : Inv s) (hguard : s.PicksUnused a)
    (h : step s a = some s') : Inv s' := by
  cases a with
  | createServer p serverId =>
    cases h
    exact inv_of_entries hinv (noneEntered_setPeer fun _ _ he => he) rfl
  | openTunnel p serverId =>
    cases h
    exact inv_append hinv (fun _ _ _ he => he) rfl (List.forall_mem_singleton.mpr rfl)
  | deliver i =>
    obtain ⟨⟨p, m⟩, hi, rfl⟩ := Option.map_eq_some_iff.mp h
    exact inv_deliver hinv hi hguard
  | drop i =>
    obtain ⟨m, -, rfl⟩ := Option.map_eq_some_iff.mp h
    exact inv_eraseIdx hinv i
  | destroyTunnel p handle =>
    cases h
    exact inv_destroyTunnel hinv p handle
  | destroyServer p serverId =>
    cases h
    exact inv_destroyServer hinv p serverId

/-- An entry that the step leaves under its handle is the entry that it was. -/
def KeepsEntries (s s' : Network) : Prop :=
  ∀ p handle e e', (s.peers p).tunnels.lookup handle = some e →
    (s'.peers p).tunnels.lookup handle = some e' → e' = e

/-- The two peers have no two tunnels under one handle. -/
def OneTunnel (s : Network) : Prop :=
  ∀ handle e e', (s.peers .a).tunnels.lookup handle = some e →
    (s.peers .b).tunnels.lookup handle = some e' → e.tunnel = e'.tunnel

namespace TunnelsLemmas

theorem keepsEntries_of_none (h : NoneEntered s s') : KeepsEntries s s' := by
  intro p handle e e' he he'
  exact Option.some.inj ((h p handle e' he').symm.trans he)

/-- An entry is entered where there was none. -/
theorem keepsEntries_enter (s₁ : Network) {p : Peer} {handle : UInt8} {e : P2PTunnelClient}
    (hpeers : s₁.peers = s.peers) (hvacant : (s.peers p).tunnels.lookup handle = none) :
    KeepsEntries s (s₁.setPeer p ((s₁.peers p).enter handle e)) := by
  intro q handle' e₀ e' he he'
  rw [lookup_enter] at he'
  split at he'
  · next heq =>
    obtain ⟨rfl, rfl⟩ := heq
    rw [hvacant] at he
    cases he
  · rw [hpeers] at he'
    exact Option.some.inj (he'.symm.trans he)

theorem keepsEntries_deliver (hinv : Inv s) {i : Nat} {p : Peer} {m : Message}
    (hi : s.inFlight[i]? = some (p, m)) :
    KeepsEntries s (receive { s with inFlight := s.inFlight.eraseIdx i } p m) := by
  cases m with
  | openTunnel tunnel serverId =>
    rw [receive]
    split
    · next handle htaken =>
      exact keepsEntries_enter { s with inFlight := s.inFlight.eraseIdx i } rfl
        (takenHandle_free htaken)
    · exact keepsEntries_of_none fun _ _ _ he => he
  | result tunnel serverId handle =>
    exact keepsEntries_enter { s with inFlight := s.inFlight.eraseIdx i } rfl
      (hinv.vacant p tunnel serverId handle (List.mem_of_getElem? hi))
  | noTunnel tunnel => exact keepsEntries_of_none fun _ _ _ he => he
  | closeTunnel handle => exact keepsEntries_of_none (noneEntered_erase (s := s) p handle)

theorem keepsEntries_step {a : Action} (hinv : Inv s) (h : step s a = some s') :
    KeepsEntries s s' := by
  cases a with
  | createServer p serverId =>
    cases h
    exact keepsEntries_of_none (noneEntered_setPeer fun _ _ he => he)
  | openTunnel p serverId =>
    cases h
    exact keepsEntries_of_none fun _ _ _ he => he
  | deliver i =>
    obtain ⟨⟨p, m⟩, hi, rfl⟩ := Option.map_eq_some_iff.mp h
    exact keepsEntries_deliver hinv hi
  | drop i =>
    obtain ⟨m, -, rfl⟩ := Option.map_eq_some_iff.mp h
    exact keepsEntries_of_none fun _ _ _ he => he
  | destroyTunnel p handle =>
    cases h
    exact keepsEntries_of_none (noneEntered_destroyTunnel p handle)
  | destroyServer p serverId =>
    cases h
    exact keepsEntries_of_none (noneEntered_destroyServer p serverId)

end TunnelsLemmas

/-- In a run in which the handle that a peer takes for a tunnel is in use nowhere, no entry is
overwritten and the two peers do not have two tunnels under one handle. -/
theorem tunnels_kept {hasPublicIp : Peer → Bool}
    (h : Lts.Reachable step PicksUnused (init hasPublicIp) s) :
    OneTunnel s ∧ ∀ a s', step s a = some s' → KeepsEntries s s' := by
  have hinv : Inv s :=
    h.invariant (inv_init hasPublicIp) fun _ _ _ hinv hguard hs => inv_step hinv hguard hs
  refine ⟨fun handle e e' he he' => ?_, fun a s' hstep => keepsEntries_step hinv hstep⟩
  exact hinv.one handle _ _ (.inl ⟨.a, e, he, rfl⟩) (.inl ⟨.b, e', he', rfl⟩)

/-- The peer `a` opens a tunnel to a server of the peer `b`. -/
def oneOpen : List Action :=
  [.createServer .b ['s'], .openTunnel .a ['s'], .deliver 0, .deliver 0]

/-- Once that tunnel is there, `b` opens one to a server of `a`. -/
def bothOpen : List Action :=
  oneOpen ++ [.createServer .a ['s'], .openTunnel .b ['s'], .deliver 0, .deliver 0]

theorem tunnels_kept_bothOpen :
    ∃ s, (s.peers .a).tunnels.lookup 0 = some ⟨0, ['s'], false⟩ ∧
      (s.peers .a).tunnels.lookup 1 = some ⟨1, ['s'], true⟩ ∧
      (s.peers .b).tunnels.lookup 1 = some ⟨1, ['s'], false⟩ ∧ OneTunnel s ∧
        ∀ a s', step s a = some s' → KeepsEntries s s' := by
  obtain ⟨s, hs, hp⟩ := Lts.Reachable.of_exec step PicksUnused (init fun _ => false) bothOpen
    (fun s => decide ((s.peers .a).tunnels.lookup 0 = some ⟨0, ['s'], false⟩ ∧
      (s.peers .a).tunnels.lookup 1 = some ⟨1, ['s'], true⟩ ∧
      (s.peers .b).tunnels.lookup 1 = some ⟨1, ['s'], false⟩)) (by decide +kernel)
  obtain ⟨ha, ha', hb⟩ := of_decide_eq_true hp
  exact ⟨s, ha, ha', hb, tunnels_kept hs⟩

/-- Both peers ask for a tunnel before a request arrives: both take the handle 0. -/
def crossing : List Action :=
  [.createServer .a ['s'], .createServer .b ['s'], .openTunnel .a ['s'], .openTunnel .b ['s'],
    .deliver 0, .deliver 0]

theorem crossing_opens :
    (¬ ∀ s, Lts.Reachable step Lts.anyStep (init fun _ => false) s → OneTunnel s) ∧
      ¬ ∀ s a s', Lts.Reachable step Lts.anyStep (init fun _ => false) s →
        step s a = some s' → KeepsEntries s s' := by
  obtain ⟨s, hs, hp⟩ := Lts.Reachable.of_exec step Lts.anyStep (init fun _ => false) crossing
    (fun s => decide ((s.peers .a).tunnels.lookup 0 = some ⟨1, ['s'], true⟩) &&
      decide ((s.peers .b).tunnels.lookup 0 = some ⟨0, ['s'], true⟩) &&
      decide (((step s (.deliver 0)).map fun s' => (s'.peers .a).tunnels.lookup 0) =
        some (some ⟨0, ['s'], false⟩))) (by decide +kernel)
  rw [Bool.and_eq_true, Bool.and_eq_true, decide_eq_true_eq, decide_eq_true_eq,
    decide_eq_true_eq] at hp
  obtain ⟨⟨ha, hb⟩, hdeliver⟩ := hp
  constructor
  · intro hclaim
    exact absurd (hclaim s hs 0 _ _ ha hb) Nat.one_ne_zero
  · intro hclaim
    obtain ⟨s', hstep, ha'⟩ := Option.map_eq_some_iff.mp hdeliver
    have hsame := hclaim s _ s' hs hstep .a 0 _ _ ha ha'
    exact absurd (congrArg P2PTunnelClient.tunnel hsame) Nat.zero_ne_one

end Network

end Stormancer.P2P.Tunnels
