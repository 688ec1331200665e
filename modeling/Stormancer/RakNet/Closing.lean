import Stormancer.Lib.Heap
import Stormancer.Lib.Run
import Stormancer.Lib.Slots

/-!
# Closing a `RakNetConnection`

A connection is closed by `close`, by `onDisconnection` when the remote peer disconnects or is
lost, and by `stop`, which calls `onDisconnection` for each connection. `onConnection` sets the
states of a new one. Each call is a thread that goes on by one operation at a time, in any order
with the others. A call that a handler of `onClose` or an observer of the states makes is a
thread too: it runs between two operations of the thread that called the handler.

The handlers, the log and the close reasons are left out. States are equal when their `state` is,
whatever the reason (`ConnectionState::operator==`).

Results:
1. `closes_once`: over every run in which a connection is closed once, and not before it is open,
   `onClose` fires at most once and the state stays when it has become `Disconnected`.
2. `closed_twice`: a lost connection after a call of `close`.
-/

namespace Stormancer.RakNet.Closing

/-! ## Definitions -/

inductive ConnectionState
  | disconnected
  | connecting
  | connected
  | disconnecting
deriving DecidableEq

/-- What a thread does to a connection: `setConnectionState`, or the call of `onClose`. -/
inductive Op
  | setState (state : ConnectionState)
  | onClose
deriving DecidableEq

structure RakNetConnection where
  connectionState : ConnectionState
  /-- The states that were set, in order. -/
  changes : List ConnectionState
  /-- How often `onClose` fired. -/
  closes : Nat
deriving DecidableEq

namespace RakNetConnection

/-- A new connection. -/
def new : RakNetConnection := ⟨.disconnected, [], 0⟩

def setConnectionState (k : RakNetConnection) (state : ConnectionState) : RakNetConnection :=
  if k.connectionState = state then k
  else { k with connectionState := state, changes := k.changes ++ [state] }

def apply (k : RakNetConnection) : Op → RakNetConnection
  | .setState state => k.setConnectionState state
  | .onClose => { k with closes := k.closes + 1 }

def isOpen (k : RakNetConnection) : Bool :=
  k.connectionState = .connected || k.connectionState = .connecting

end RakNetConnection

/-- `close`, when the connection is open. -/
def closeOps : List Op := [.setState .disconnecting, .onClose, .setState .disconnected]

/-- `onDisconnection`, when the connection is registered. -/
def onDisconnectionOps : List Op := [.onClose, .setState .disconnecting, .setState .disconnected]

def onConnectionOps : List Op := [.setState .connecting, .setState .connected]

/-- The index of a connection in the list of all connections. -/
abbrev Ref := Nat

inductive Thread
  /-- Before the test of `close`. -/
  | close (c : Ref)
  /-- Before `onDisconnection` for each of the guids. -/
  | onDisconnection (guids : List UInt64)
  /-- Before the operations on a connection, and then `onDisconnection` for the guids. -/
  | ops (c : Ref) (ops : List Op) (guids : List UInt64)
deriving DecidableEq

structure RakNetTransport where
  all : List RakNetConnection
  /-- `_connections`. -/
  connections : Slots.Table UInt64 Ref
  isRunning : Bool
  threads : List Thread

namespace RakNetTransport

/-- A transport that was started. -/
def init : RakNetTransport := ⟨[], ∅, true, []⟩

def spawn (s : RakNetTransport) (t : Thread) : RakNetTransport :=
  { s with threads := s.threads ++ [t] }

def continueAs (s : RakNetTransport) (i : Nat) (t : Thread) : RakNetTransport :=
  { s with threads := s.threads.set i t }

inductive Action
  /-- `createNewConnection`, and the beginning of `onConnection`. -/
  | onConnection (guid : UInt64)
  | close (c : Ref)
  /-- `ID_DISCONNECTION_NOTIFICATION` or `ID_CONNECTION_LOST`. -/
  | onDisconnection (guid : UInt64)
  | stop
  /-- The next operation of a thread. -/
  | advance (i : Nat)
deriving DecidableEq

/-- The next operation of the thread `i`. `none`: there is none. -/
def advance (s : RakNetTransport) (i : Nat) : Option RakNetTransport :=
  match s.threads[i]? with
  | none => none
  | some (.close c) =>
    if (s.all[c]?).any RakNetConnection.isOpen then some (s.continueAs i (.ops c closeOps []))
    else some (s.continueAs i (.onDisconnection []))
  | some (.onDisconnection []) => none
  | some (.onDisconnection (guid :: guids)) =>
    -- `removeConnection`
    match s.connections.lookup guid with
    | none => some (s.continueAs i (.onDisconnection guids))
    | some c =>
      some { s.continueAs i (.ops c onDisconnectionOps guids) with
        connections := s.connections.erase guid }
  | some (.ops _ [] guids) => some (s.continueAs i (.onDisconnection guids))
  | some (.ops c (op :: ops) guids) =>
    some { s.continueAs i (.ops c ops guids) with all := s.all.modify c fun k => k.apply op }

def step (s : RakNetTransport) : Action → Option RakNetTransport
  | .onConnection guid =>
    if s.isRunning then
      some
        { s.spawn (.ops s.all.length onConnectionOps []) with
          all := s.all ++ [.new]
          connections := s.connections.insert guid s.all.length }
    else none
  | .close c => if c < s.all.length then some (s.spawn (.close c)) else none
  | .onDisconnection guid => some (s.spawn (.onDisconnection [guid]))
  | .stop =>
    if s.isRunning then
      some { s.spawn (.onDisconnection s.connections.keys) with isRunning := false }
    else none
  | .advance i => s.advance i

/-! ## The condition -/

/-- Some thread is about to do `op` to the connection. -/
def pending (s : RakNetTransport) (c : Ref) (op : Op) : Bool :=
  s.threads.any fun
    | .ops c' ops _ => decide (c' = c) && decide (op ∈ ops)
    | _ => false

/-- `onClose` has fired or is about to fire. -/
def isClosing (s : RakNetTransport) (c : Ref) : Bool :=
  (s.all[c]?).any (fun k => decide (0 < k.closes)) || s.pending c .onClose

/-- The condition on the next operation of a thread: `close` finds the connection open, or
`onDisconnection` finds it registered, only when it is not closing; and it becomes `Disconnected`
when `onConnection` has no state of it left to set. -/
def mayAdvance (s : RakNetTransport) (i : Nat) : Bool :=
  match s.threads[i]? with
  | some (.close c) => !(s.all[c]?).any RakNetConnection.isOpen || !s.isClosing c
  | some (.onDisconnection (guid :: _)) =>
    (s.connections.lookup guid).all fun c => !s.isClosing c
  | some (.ops c (.setState .disconnected :: _) _) =>
    !s.pending c (.setState .connecting) && !s.pending c (.setState .connected)
  | _ => true

def closesOnce (s : RakNetTransport) : Action → Bool
  | .advance i => s.mayAdvance i
  | _ => true

abbrev ClosesOnce (s : RakNetTransport) (a : Action) : Prop := s.closesOnce a = true

/-! ## The invariant -/

/-- The operations that a thread may have left. -/
def remainders : List (List Op) :=
  closeOps.tails ++ onDisconnectionOps.tails ++ onConnectionOps.tails

/-- The thread `i` is about to do `ops` to the connection `c`. -/
def Doing (s : RakNetTransport) (i : Nat) (c : Ref) (ops : List Op) : Prop :=
  ∃ guids, s.threads[i]? = some (.ops c ops guids)

structure Inv (s : RakNetTransport) : Prop where
  known : ∀ i c ops, s.Doing i c ops → c < s.all.length ∧ ops ∈ remainders
  registered : ∀ guid c, s.connections.lookup guid = some c → c < s.all.length
  asked : ∀ (i : Nat) c, s.threads[i]? = some (Thread.close c) → c < s.all.length
  /-- One thread at most closes the connection. -/
  single : ∀ i j c ops ops', s.Doing i c ops → s.Doing j c ops' →
    .setState .disconnected ∈ ops → .setState .disconnected ∈ ops' → i = j
  firing : ∀ i c ops (k : RakNetConnection), s.Doing i c ops → s.all[c]? = some k →
    .onClose ∈ ops → k.closes = 0
  fired : ∀ i c ops (k : RakNetConnection), s.Doing i c ops → s.all[c]? = some k →
    .setState .disconnected ∈ ops → .onClose ∉ ops → 0 < k.closes
  once : ∀ (c : Ref) (k : RakNetConnection), s.all[c]? = some k → k.closes ≤ 1
  /-- After `Disconnected` nothing is left to do. -/
  ended : ∀ (c : Ref) (k : RakNetConnection), s.all[c]? = some k → .disconnected ∈ k.changes →
    0 < k.closes ∧ (∀ i ops, s.Doing i c ops → ops = []) ∧
      ∃ before, k.changes = before ++ [.disconnected] ∧ .disconnected ∉ before

/-! ## Helpers -/

namespace ClosingLemmas

theorem remainder_tail : ∀ ops ∈ remainders, ops.tail ∈ remainders := by decide

theorem closing_of_onClose :
    ∀ ops ∈ remainders, .onClose ∈ ops → .setState .disconnected ∈ ops := by decide

theorem onClose_once :
    ∀ ops ∈ remainders, ops.head? = some .onClose → .onClose ∉ ops.tail := by decide

theorem disconnected_last : ∀ ops ∈ remainders,
    ops.head? = some (.setState .disconnected) → ops = [.setState .disconnected] := by decide

theorem nothing_left : ∀ ops ∈ remainders, .setState .disconnected ∉ ops →
    .setState .connecting ∉ ops → .setState .connected ∉ ops → ops = [] := by decide

variable {s s' : RakNetTransport}

theorem doing_spawn {t : Thread} {i : Nat} {c : Ref} {ops : List Op}
    (h : (s.spawn t).Doing i c ops) :
    s.Doing i c ops ∨ i = s.threads.length ∧ ∃ guids, t = .ops c ops guids := by
  obtain ⟨guids, hi⟩ := h
  rcases Heap.of_make hi with hi | ⟨hnew, heq⟩
  · exact .inl ⟨guids, hi⟩
  · exact .inr ⟨hnew, guids, heq.symm⟩

/-- A thread that goes on as `t`; the others are as they were. -/
theorem doing_continueAs {t : Thread} {i j : Nat} {c : Ref} {ops : List Op}
    (h : (s.continueAs i t).Doing j c ops) :
    (j ≠ i ∧ s.Doing j c ops) ∨ j = i ∧ ∃ guids, t = .ops c ops guids := by
  obtain ⟨guids, hj⟩ := h
  rcases Heap.of_set hj with ⟨hne, hj⟩ | ⟨hi, heq⟩
  · exact .inl ⟨hne, guids, hj⟩
  · exact .inr ⟨hi, guids, heq.symm⟩

theorem pending_iff {c : Ref} {op : Op} :
    s.pending c op = true ↔ ∃ i ops, s.Doing i c ops ∧ op ∈ ops := by
  rw [pending, List.any_eq_true]
  constructor
  · rintro ⟨t, ht, hop⟩
    cases t with
    | close c' => cases hop
    | onDisconnection guids => cases hop
    | ops c' ops guids =>
      obtain ⟨hc, hmem⟩ := Bool.and_eq_true_iff.mp hop
      have heq := of_decide_eq_true hc
      subst heq
      obtain ⟨i, hi⟩ := List.getElem?_of_mem ht
      exact ⟨i, ops, ⟨guids, hi⟩, of_decide_eq_true hmem⟩
  · rintro ⟨i, ops, ⟨guids, hi⟩, hmem⟩
    exact ⟨_, List.mem_of_getElem? hi, by simp [hmem]⟩

theorem not_pending {c : Ref} {op : Op} (h : s.pending c op = false) {i : Nat} {ops : List Op}
    (hdoing : s.Doing i c ops) : op ∉ ops := by
  intro hmem
  have hpending := pending_iff.mpr ⟨i, ops, hdoing, hmem⟩
  rw [h] at hpending
  cases hpending

/-- A connection that is not closing has not been closed, and no thread closes it. -/
theorem not_closing (hinv : Inv s) {c : Ref} (h : s.isClosing c = false) :
    (∀ k, s.all[c]? = some k → k.closes = 0 ∧ .disconnected ∉ k.changes) ∧
      ∀ i ops, s.Doing i c ops → .setState .disconnected ∉ ops := by
  rw [isClosing, Bool.or_eq_false_iff] at h
  have hcloses : ∀ k, s.all[c]? = some k → k.closes = 0 := by
    intro k hk
    have hnot := h.1
    rw [hk] at hnot
    exact Nat.eq_zero_of_not_pos (of_decide_eq_false hnot)
  refine ⟨fun k hk => ⟨hcloses k hk, fun hended => ?_⟩, fun i ops hdoing hmem => ?_⟩
  · exact (hinv.ended c k hk hended).1.ne' (hcloses k hk)
  · obtain ⟨hlt, -⟩ := hinv.known i c ops hdoing
    have hk : s.all[c]? = some s.all[c] := List.getElem?_eq_getElem hlt
    exact (hinv.fired i c ops _ hdoing hk hmem (not_pending h.2 hdoing)).ne' (hcloses _ hk)

/-! ### The steps -/

/-- A step after which no thread does more than before. -/
theorem inv_of_doing (hinv : Inv s) (hall : s'.all = s.all)
    (hdoing : ∀ i c ops, s'.Doing i c ops → s.Doing i c ops)
    (hregistered : ∀ guid c, s'.connections.lookup guid = some c → c < s'.all.length)
    (hasked : ∀ (i : Nat) c, s'.threads[i]? = some (Thread.close c) → c < s'.all.length) :
    Inv s' := by
  constructor
  case known => rw [hall]; exact fun i c ops h => hinv.known i c ops (hdoing i c ops h)
  case registered => exact hregistered
  case asked => exact hasked
  case single =>
    exact fun i j c ops ops' hi hj => hinv.single i j c ops ops' (hdoing _ _ _ hi) (hdoing _ _ _ hj)
  case firing => rw [hall]; exact fun i c ops k h => hinv.firing i c ops k (hdoing i c ops h)
  case fired => rw [hall]; exact fun i c ops k h => hinv.fired i c ops k (hdoing i c ops h)
  case once => rw [hall]; exact hinv.once
  case ended =>
    rw [hall]
    intro c k hk hended
    obtain ⟨hcloses, hnothing, hchanges⟩ := hinv.ended c k hk hended
    exact ⟨hcloses, fun i ops h => hnothing i ops (hdoing i c ops h), hchanges⟩

/-- A closing begins in the thread `i`. -/
theorem inv_of_begins (hinv : Inv s) (hall : s'.all = s.all) (i₀ : Nat) (c₀ : Ref)
    (ops₀ : List Op) (hops : ops₀ ∈ remainders) (hfires : .onClose ∈ ops₀)
    (hclosing : s.isClosing c₀ = false) (hlt : c₀ < s.all.length)
    (hdoing : ∀ i c ops, s'.Doing i c ops →
      s.Doing i c ops ∨ i = i₀ ∧ c = c₀ ∧ ops = ops₀)
    (hregistered : ∀ guid c, s'.connections.lookup guid = some c → c < s'.all.length)
    (hasked : ∀ (i : Nat) c, s'.threads[i]? = some (Thread.close c) → c < s'.all.length) :
    Inv s' := by
  obtain ⟨hfresh, hnone⟩ := not_closing hinv hclosing
  constructor
  case known =>
    rw [hall]
    intro i c ops h
    rcases hdoing i c ops h with h | ⟨rfl, rfl, rfl⟩
    · exact hinv.known i c ops h
    · exact ⟨hlt, hops⟩
  case registered => exact hregistered
  case asked => exact hasked
  case single =>
    intro i j c ops ops' hi hj hmem hmem'
    rcases hdoing i c ops hi with hi | ⟨rfl, rfl, rfl⟩
    · rcases hdoing j c ops' hj with hj | ⟨rfl, rfl, rfl⟩
      · exact hinv.single i j c ops ops' hi hj hmem hmem'
      · exact absurd hmem (hnone i ops hi)
    · rcases hdoing j c ops' hj with hj | ⟨rfl, -, -⟩
      · exact absurd hmem' (hnone j ops' hj)
      · rfl
  case firing =>
    rw [hall]
    intro i c ops k h hk hmem
    rcases hdoing i c ops h with h | ⟨rfl, rfl, rfl⟩
    · exact hinv.firing i c ops k h hk hmem
    · exact (hfresh k hk).1
  case fired =>
    rw [hall]
    intro i c ops k h hk hmem hfired
    rcases hdoing i c ops h with h | ⟨rfl, rfl, rfl⟩
    · exact hinv.fired i c ops k h hk hmem hfired
    · exact absurd hfires hfired
  case once => rw [hall]; exact hinv.once
  case ended =>
    rw [hall]
    intro c k hk hended
    obtain ⟨hcloses, hnothing, hchanges⟩ := hinv.ended c k hk hended
    refine ⟨hcloses, fun i ops h => ?_, hchanges⟩
    rcases hdoing i c ops h with h | ⟨rfl, rfl, rfl⟩
    · exact hnothing i ops h
    · exact absurd hended (hfresh k hk).2

theorem setConnectionState_closes (k : RakNetConnection) (state : ConnectionState) :
    (k.setConnectionState state).closes = k.closes := by
  unfold RakNetConnection.setConnectionState
  split <;> rfl

theorem setConnectionState_changes (k : RakNetConnection) (state : ConnectionState) :
    (k.setConnectionState state).changes = k.changes ∨
      (k.setConnectionState state).changes = k.changes ++ [state] := by
  unfold RakNetConnection.setConnectionState
  split
  · exact .inl rfl
  · exact .inr rfl

section Op

variable {i : Nat} {c : Ref} {op : Op} {ops : List Op} {guids : List UInt64}

/-- The state after the thread `i` did `op`. -/
def afterOp (s : RakNetTransport) (i : Nat) (c : Ref) (op : Op) (ops : List Op)
    (guids : List UInt64) : RakNetTransport :=
  { s.continueAs i (.ops c ops guids) with all := s.all.modify c fun k => k.apply op }

theorem all_afterOp {d : Ref} {k' : RakNetConnection}
    (h : (afterOp s i c op ops guids).all[d]? = some k') :
    (d ≠ c ∧ s.all[d]? = some k') ∨ d = c ∧ ∃ k, s.all[c]? = some k ∧ k' = k.apply op := by
  unfold afterOp at h
  rw [List.getElem?_modify] at h
  obtain ⟨k, hk, rfl⟩ := Option.map_eq_some_iff.mp h
  split
  · next heq =>
    subst heq
    exact .inr ⟨rfl, k, hk, rfl⟩
  · next hne => exact .inl ⟨Ne.symm hne, hk⟩

theorem doing_afterOp {j : Nat} {d : Ref} {l : List Op}
    (h : (afterOp s i c op ops guids).Doing j d l) :
    (j ≠ i ∧ s.Doing j d l) ∨ j = i ∧ d = c ∧ l = ops := by
  rcases doing_continueAs (show (s.continueAs i _).Doing j d l from h) with h | ⟨rfl, _, heq⟩
  · exact .inl h
  · cases heq
    exact .inr ⟨rfl, rfl, rfl⟩

/-- Before the step the thread had as much or more to do. -/
theorem did_before (hi : s.Doing i c (op :: ops)) {j : Nat} {d : Ref} {l : List Op}
    (h : (afterOp s i c op ops guids).Doing j d l) : ∃ l', s.Doing j d l' ∧ l ⊆ l' := by
  rcases doing_afterOp h with ⟨-, h⟩ | ⟨rfl, rfl, rfl⟩
  · exact ⟨l, h, List.Subset.refl l⟩
  · exact ⟨op :: l, hi, List.subset_cons_self op l⟩

theorem firing_afterOp (hinv : Inv s) (hi : s.Doing i c (op :: ops)) {j : Nat} {d : Ref}
    {l : List Op} {k' : RakNetConnection} (hj : (afterOp s i c op ops guids).Doing j d l)
    (hk' : (afterOp s i c op ops guids).all[d]? = some k') (hmem : .onClose ∈ l) :
    k'.closes = 0 := by
  obtain ⟨-, hrest⟩ := hinv.known i c _ hi
  obtain ⟨m, hm, hsub⟩ := did_before hi hj
  rcases all_afterOp hk' with ⟨-, hk⟩ | ⟨rfl, k, hk, rfl⟩
  · exact hinv.firing j d m k' hm hk (hsub hmem)
  · cases op with
    | setState state =>
      rw [RakNetConnection.apply, setConnectionState_closes]
      exact hinv.firing j d m k hm hk (hsub hmem)
    | onClose =>
      -- Only the thread `i` closes the connection, and it fires once.
      have hji := hinv.single j i d m _ hm hi
        (closing_of_onClose m (hinv.known j d m hm).2 (hsub hmem))
        (closing_of_onClose _ hrest List.mem_cons_self)
      rcases doing_afterOp hj with ⟨hne, -⟩ | ⟨-, -, rfl⟩
      · exact absurd hji hne
      · exact absurd hmem (onClose_once _ hrest rfl)

theorem fired_afterOp (hinv : Inv s) (hi : s.Doing i c (op :: ops)) {j : Nat} {d : Ref}
    {l : List Op} {k' : RakNetConnection} (hj : (afterOp s i c op ops guids).Doing j d l)
    (hk' : (afterOp s i c op ops guids).all[d]? = some k')
    (hmem : .setState .disconnected ∈ l) (hfired : .onClose ∉ l) : 0 < k'.closes := by
  rcases all_afterOp hk' with ⟨hne, hk⟩ | ⟨rfl, k, hk, rfl⟩
  · rcases doing_afterOp hj with ⟨-, hj⟩ | ⟨-, heq, -⟩
    · exact hinv.fired j d l k' hj hk hmem hfired
    · exact absurd heq hne
  · cases op with
    | onClose => exact Nat.succ_pos _
    | setState state =>
      rw [RakNetConnection.apply, setConnectionState_closes]
      rcases doing_afterOp hj with ⟨-, hj⟩ | ⟨rfl, -, rfl⟩
      · exact hinv.fired j d l k hj hk hmem hfired
      · refine hinv.fired j d _ k hi hk (List.mem_cons_of_mem _ hmem) ?_
        rw [List.mem_cons, not_or]
        exact ⟨Op.noConfusion, hfired⟩

theorem once_afterOp (hinv : Inv s) (hi : s.Doing i c (op :: ops)) {d : Ref}
    {k' : RakNetConnection} (hk' : (afterOp s i c op ops guids).all[d]? = some k') :
    k'.closes ≤ 1 := by
  rcases all_afterOp hk' with ⟨-, hk⟩ | ⟨rfl, k, hk, rfl⟩
  · exact hinv.once d k' hk
  · cases op with
    | setState state =>
      rw [RakNetConnection.apply, setConnectionState_closes]
      exact hinv.once d k hk
    | onClose =>
      have hzero := hinv.firing i d _ k hi hk List.mem_cons_self
      exact (congrArg (· + 1) hzero).le

/-- When the thread `i` sets `Disconnected`, nothing is left to do to the connection. -/
theorem nothing_left_afterOp (hinv : Inv s) (hi : s.Doing i c [.setState .disconnected])
    (hconnecting : s.pending c (.setState .connecting) = false)
    (hconnected : s.pending c (.setState .connected) = false) {j : Nat} {l : List Op}
    (hj : (afterOp s i c (.setState .disconnected) [] guids).Doing j c l) : l = [] := by
  rcases doing_afterOp hj with ⟨hne, hj⟩ | ⟨-, -, rfl⟩
  · refine nothing_left l (hinv.known j c l hj).2 (fun hmem => hne ?_)
      (not_pending hconnecting hj) (not_pending hconnected hj)
    exact hinv.single j i c l _ hj hi hmem List.mem_cons_self
  · rfl

theorem ended_afterOp (hinv : Inv s) (hi : s.Doing i c (op :: ops))
    (hguard : op = .setState .disconnected → s.pending c (.setState .connecting) = false ∧
      s.pending c (.setState .connected) = false) {d : Ref} {k' : RakNetConnection}
    (hk' : (afterOp s i c op ops guids).all[d]? = some k') (hended : .disconnected ∈ k'.changes) :
    0 < k'.closes ∧ (∀ j l, (afterOp s i c op ops guids).Doing j d l → l = []) ∧
      ∃ before, k'.changes = before ++ [.disconnected] ∧ .disconnected ∉ before := by
  rcases all_afterOp hk' with ⟨hne, hk⟩ | ⟨rfl, k, hk, rfl⟩
  · obtain ⟨hcloses, hnothing, hchanges⟩ := hinv.ended d k' hk hended
    refine ⟨hcloses, fun j l hj => ?_, hchanges⟩
    rcases doing_afterOp hj with ⟨-, hj⟩ | ⟨-, heq, -⟩
    · exact hnothing j l hj
    · exact absurd heq hne
  · have hbefore : .disconnected ∉ k.changes := fun hmem =>
      List.cons_ne_nil _ _ ((hinv.ended d k hk hmem).2.1 i _ hi)
    cases op with
    | onClose => exact absurd hended hbefore
    | setState state =>
      rw [RakNetConnection.apply] at hended ⊢
      rw [setConnectionState_closes]
      rcases setConnectionState_changes k state with hsame | hchanged
      · rw [hsame] at hended
        exact absurd hended hbefore
      · rw [hchanged] at hended ⊢
        have hstate : .disconnected = state :=
          List.mem_singleton.mp ((List.mem_append.mp hended).resolve_left hbefore)
        subst hstate
        have hlast : ops = [] :=
          List.tail_eq_of_cons_eq (disconnected_last _ (hinv.known i d _ hi).2 rfl)
        subst hlast
        obtain ⟨hconnecting, hconnected⟩ := hguard rfl
        exact ⟨hinv.fired i d _ k hi hk List.mem_cons_self (by simp),
          fun j l hj => nothing_left_afterOp hinv hi hconnecting hconnected hj,
          k.changes, rfl, hbefore⟩

theorem inv_afterOp (hinv : Inv s) (hi : s.Doing i c (op :: ops))
    (hguard : op = .setState .disconnected → s.pending c (.setState .connecting) = false ∧
      s.pending c (.setState .connected) = false) :
    Inv (afterOp s i c op ops guids) := by
  have hlength : (afterOp s i c op ops guids).all.length = s.all.length := List.length_modify _ _ _
  obtain ⟨hlt, hrest⟩ := hinv.known i c _ hi
  constructor
  case known =>
    rw [hlength]
    intro j d l h
    rcases doing_afterOp h with ⟨-, h⟩ | ⟨rfl, rfl, rfl⟩
    · exact hinv.known j d l h
    · exact ⟨hlt, ClosingLemmas.remainder_tail _ hrest⟩
  case registered => rw [hlength]; exact hinv.registered
  case asked =>
    rw [hlength]
    intro j d h
    rcases Heap.of_set h with ⟨-, h⟩ | ⟨-, heq⟩
    · exact hinv.asked j d h
    · cases heq
  case single =>
    intro j j' d l l' hj hj' hmem hmem'
    obtain ⟨m, hm, hsub⟩ := did_before hi hj
    obtain ⟨m', hm', hsub'⟩ := did_before hi hj'
    exact hinv.single j j' d m m' hm hm' (hsub hmem) (hsub' hmem')
  case firing => exact fun _ _ _ _ hj hk' hmem => firing_afterOp hinv hi hj hk' hmem
  case fired =>
    exact fun _ _ _ _ hj hk' hmem hfired => fired_afterOp hinv hi hj hk' hmem hfired
  case once => exact fun _ _ hk' => once_afterOp hinv hi hk'
  case ended => exact fun _ _ hk' hended => ended_afterOp hinv hi hguard hk' hended

end Op

/-- A new connection, which no other thread knows. -/
theorem inv_onConnection (hinv : Inv s) (guid : UInt64) :
    Inv { s.spawn (.ops s.all.length onConnectionOps []) with
      all := s.all ++ [.new]
      connections := s.connections.insert guid s.all.length } := by
  have hdoing : ∀ {i c ops}, (s.spawn (.ops s.all.length onConnectionOps [])).Doing i c ops →
      (s.Doing i c ops ∧ c < s.all.length) ∨ i = s.threads.length ∧ c = s.all.length ∧
        ops = onConnectionOps := by
    intro i c ops h
    rcases doing_spawn h with h | ⟨hi, guids, heq⟩
    · exact .inl ⟨h, (hinv.known i c ops h).1⟩
    · cases heq
      exact .inr ⟨hi, rfl, rfl⟩
  have hlength : (s.all ++ [RakNetConnection.new]).length = s.all.length + 1 :=
    List.length_append
  have hold : ∀ {c : Ref} {k}, c < s.all.length → (s.all ++ [.new])[c]? = some k →
      s.all[c]? = some k := by
    intro c k hlt hk
    rw [List.getElem?_append_left hlt] at hk
    exact hk
  constructor
  case known =>
    rw [hlength]
    intro i c ops h
    rcases hdoing h with ⟨h, hlt⟩ | ⟨-, rfl, rfl⟩
    · exact ⟨Nat.lt_succ_of_lt hlt, (hinv.known i c ops h).2⟩
    · exact ⟨Nat.lt_succ_self _, by decide⟩
  case registered =>
    rw [hlength]
    intro g c h
    rw [Slots.Table.lookup_insert_eq] at h
    split at h
    · cases h
      exact Nat.lt_succ_self _
    · exact Nat.lt_succ_of_lt (hinv.registered g c h)
  case asked =>
    rw [hlength]
    intro i c h
    rcases Heap.of_make h with h | ⟨-, heq⟩
    · exact Nat.lt_succ_of_lt (hinv.asked i c h)
    · cases heq
  case single =>
    intro i j c ops ops' hi hj hmem hmem'
    rcases hdoing hi with ⟨hi, hlt⟩ | ⟨-, rfl, rfl⟩
    · rcases hdoing hj with ⟨hj, -⟩ | ⟨-, rfl, -⟩
      · exact hinv.single i j c ops ops' hi hj hmem hmem'
      · exact absurd hlt (Nat.lt_irrefl _)
    · exact absurd hmem (by decide)
  case firing =>
    intro i c ops k h hk hmem
    rcases hdoing h with ⟨h, hlt⟩ | ⟨-, rfl, rfl⟩
    · exact hinv.firing i c ops k h (hold hlt hk) hmem
    · exact absurd hmem (by decide)
  case fired =>
    intro i c ops k h hk hmem hfired
    rcases hdoing h with ⟨h, hlt⟩ | ⟨-, rfl, rfl⟩
    · exact hinv.fired i c ops k h (hold hlt hk) hmem hfired
    · exact absurd hmem (by decide)
  case once =>
    intro c k hk
    rcases Heap.of_make hk with hk | ⟨-, rfl⟩
    · exact hinv.once c k hk
    · exact Nat.zero_le 1
  case ended =>
    intro c k hk hended
    rcases Heap.of_make hk with hk | ⟨-, rfl⟩
    · obtain ⟨hcloses, hnothing, hchanges⟩ := hinv.ended c k hk hended
      refine ⟨hcloses, fun i ops h => ?_, hchanges⟩
      rcases hdoing h with ⟨h, -⟩ | ⟨-, rfl, rfl⟩
      · exact hnothing i ops h
      · rw [List.getElem?_eq_none le_rfl] at hk
        cases hk
    · cases hended

/-- A call that begins without an operation on a connection. -/
theorem inv_spawn (hinv : Inv s) {t : Thread} (ht : ∀ c ops guids, t ≠ .ops c ops guids)
    (hclose : ∀ c, t = .close c → c < s.all.length) (running : Bool) :
    Inv { s.spawn t with isRunning := running } := by
  refine inv_of_doing hinv rfl (fun i c ops h => ?_) hinv.registered fun i c h => ?_
  · rcases doing_spawn (show (s.spawn t).Doing i c ops from h) with h | ⟨-, guids, heq⟩
    · exact h
    · exact absurd heq (ht c ops guids)
  · rcases Heap.of_make h with h | ⟨-, heq⟩
    · exact hinv.asked i c h
    · exact hclose c heq.symm

theorem asked_continueAs (hinv : Inv s) {i : Nat} {t : Thread} (ht : ∀ c, t ≠ .close c)
    (j : Nat) (c : Ref) (h : (s.continueAs i t).threads[j]? = some (Thread.close c)) :
    c < s.all.length := by
  rcases Heap.of_set h with ⟨-, h⟩ | ⟨-, heq⟩
  · exact hinv.asked j c h
  · exact absurd heq.symm (ht c)

/-- A thread goes on with `onDisconnection`. -/
theorem inv_continueAs (hinv : Inv s) (i : Nat) (guids : List UInt64) :
    Inv (s.continueAs i (.onDisconnection guids)) := by
  refine inv_of_doing hinv rfl (fun j c ops h => ?_) hinv.registered
    (asked_continueAs hinv fun _ => Thread.noConfusion)
  rcases doing_continueAs h with ⟨-, h⟩ | ⟨-, guids, heq⟩
  · exact h
  · cases heq

theorem inv_advance (hinv : Inv s) {i : Nat} (hguard : s.mayAdvance i = true)
    (h : s.advance i = some s') : Inv s' := by
  unfold mayAdvance at hguard
  unfold advance at h
  cases hi : s.threads[i]? with
  | none =>
    rw [hi] at h
    cases h
  | some t =>
    rw [hi] at h hguard
    cases t with
    | close c =>
      dsimp only at h hguard
      split at h
      · next hopen =>
        cases h
        rw [hopen, Bool.not_true, Bool.false_or, Bool.not_eq_true'] at hguard
        refine inv_of_begins hinv rfl i c closeOps (by decide) (by decide) hguard
          (hinv.asked i c hi) (fun j d l hd => ?_) hinv.registered
          (asked_continueAs hinv fun _ => Thread.noConfusion)
        rcases doing_continueAs hd with ⟨-, hd⟩ | ⟨hj, _, heq⟩
        · exact .inl hd
        · cases heq
          exact .inr ⟨hj, rfl, rfl⟩
      · cases h
        exact inv_continueAs hinv i []
    | onDisconnection guids =>
      cases guids with
      | nil => cases h
      | cons guid guids =>
        dsimp only at h hguard
        cases hlookup : s.connections.lookup guid with
        | none =>
          rw [hlookup] at h
          cases h
          exact inv_continueAs hinv i guids
        | some c =>
          rw [hlookup] at h hguard
          have hclosing : s.isClosing c = false := by simpa using hguard
          cases h
          refine inv_of_begins hinv rfl i c onDisconnectionOps (by decide) (by decide)
            hclosing (hinv.registered guid c hlookup) (fun j d l hd => ?_)
            (fun g d hg => ?_) (asked_continueAs hinv fun _ => Thread.noConfusion)
          · rcases doing_continueAs (show (s.continueAs i _).Doing j d l from hd) with
              ⟨-, hd⟩ | ⟨hj, _, heq⟩
            · exact .inl hd
            · cases heq
              exact .inr ⟨hj, rfl, rfl⟩
          · have herase : (s.connections.erase guid).lookup g = some d := hg
            rw [Slots.Table.lookup_erase_eq] at herase
            split at herase
            · cases herase
            · exact hinv.registered g d herase
    | ops c ops guids =>
      cases ops with
      | nil =>
        cases h
        exact inv_continueAs hinv i guids
      | cons op ops =>
        cases h
        refine inv_afterOp hinv ⟨guids, hi⟩ ?_
        rintro rfl
        simpa using hguard

theorem not_doing_init {i : Nat} {c : Ref} {ops : List Op} : ¬ init.Doing i c ops := by
  rintro ⟨guids, h⟩
  exact Option.some_ne_none _ h.symm

theorem inv_init : Inv init where
  known := fun _ _ _ h => absurd h not_doing_init
  registered := fun _ _ h => absurd h.symm (Option.some_ne_none _)
  asked := fun _ _ h => absurd h.symm (Option.some_ne_none _)
  single := fun _ _ _ _ _ h => absurd h not_doing_init
  firing := fun _ _ _ _ h => absurd h not_doing_init
  fired := fun _ _ _ _ h => absurd h not_doing_init
  once := fun _ _ h => absurd h.symm (Option.some_ne_none _)
  ended := fun _ _ h => absurd h.symm (Option.some_ne_none _)

end ClosingLemmas

open ClosingLemmas

variable {s s' : RakNetTransport}

/-! ## Results -/

theorem inv_step {a : Action} (hinv : Inv s) (hguard : s.ClosesOnce a)
    (h : step s a = some s') : Inv s' := by
  cases a with
  | onConnection guid =>
    rw [step] at h
    split at h
    · cases h
      exact inv_onConnection hinv guid
    · cases h
  | close c =>
    rw [step] at h
    split at h
    · next hlt =>
      cases h
      refine inv_spawn hinv (fun _ _ _ => Thread.noConfusion) (fun d hd => ?_) s.isRunning
      cases hd
      exact hlt
    · cases h
  | onDisconnection guid =>
    cases h
    exact inv_spawn hinv (fun _ _ _ => Thread.noConfusion) (fun _ => Thread.noConfusion)
      s.isRunning
  | stop =>
    rw [step] at h
    split at h
    · cases h
      exact inv_spawn hinv (fun _ _ _ => Thread.noConfusion) (fun _ => Thread.noConfusion) false
    · cases h
  | advance i => exact inv_advance hinv hguard h

/-- What a connection that closes once shows: `onClose` fires at most once, and no state is set
after `Disconnected`. -/
def ClosedOnce (k : RakNetConnection) : Prop :=
  k.closes ≤ 1 ∧ ∀ before after, k.changes = before ++ .disconnected :: after → after = []

/-- Over every run whose steps meet the condition, each connection closes once. -/
theorem closes_once (h : Lts.Reachable step ClosesOnce init s) {k : RakNetConnection}
    (hk : k ∈ s.all) : ClosedOnce k := by
  have hinv : Inv s := h.invariant inv_init fun _ _ _ hinv hguard hs => inv_step hinv hguard hs
  obtain ⟨c, hc⟩ := List.getElem?_of_mem hk
  refine ⟨hinv.once c k hc, fun before after hchanges => ?_⟩
  have hmem : .disconnected ∈ k.changes := by rw [hchanges]; simp
  obtain ⟨-, -, first, hlast, hnot⟩ := hinv.ended c k hc hmem
  rcases List.eq_nil_or_concat after with rfl | ⟨after, x, rfl⟩
  · rfl
  · -- A later state would leave `Disconnected` among the ones before the last.
    rw [hchanges, List.concat_eq_append, ← List.cons_append, ← List.append_assoc] at hlast
    have hfirst := List.append_inj_left' hlast rfl
    rw [← hfirst] at hnot
    exact absurd (List.mem_append_right _ List.mem_cons_self) hnot

/-- A connection is opened and closed. -/
def openAndClose : List Action :=
  [.onConnection 7, .advance 0, .advance 0, .close 0, .advance 1, .advance 1, .advance 1,
    .advance 1]

theorem closes_once_close : ∃ k : RakNetConnection, k.closes = 1 ∧ ClosedOnce k := by
  obtain ⟨s, hs, hp⟩ := Lts.Reachable.of_exec step ClosesOnce init openAndClose
    (fun s => s.all.any fun k => decide (k.closes = 1)) (by decide +kernel)
  obtain ⟨k, hk, hcloses⟩ := List.any_eq_true.mp hp
  exact ⟨k, of_decide_eq_true hcloses, closes_once hs hk⟩

/-- The connection is lost after it was closed: it is still registered. -/
theorem closed_twice :
    (¬ ∀ s, Lts.Reachable step Lts.anyStep init s → ∀ k ∈ s.all, k.closes ≤ 1) ∧
      ¬ ∀ s, Lts.Reachable step Lts.anyStep init s → ∀ k ∈ s.all, ∀ before after,
        k.changes = before ++ .disconnected :: after → after = [] := by
  obtain ⟨s, hs, hp⟩ := Lts.Reachable.of_exec step Lts.anyStep init
    (openAndClose ++ [.onDisconnection 7, .advance 2, .advance 2, .advance 2, .advance 2])
    (fun s => s.all.any fun k => decide (k.closes = 2) && decide (k.changes =
      [.connecting, .connected, .disconnecting] ++
        .disconnected :: [.disconnecting, .disconnected])) (by decide +kernel)
  obtain ⟨k, hk, hboth⟩ := List.any_eq_true.mp hp
  rw [Bool.and_eq_true, decide_eq_true_eq, decide_eq_true_eq] at hboth
  constructor
  · intro hclaim
    have hle := hclaim s hs k hk
    rw [hboth.1] at hle
    exact absurd hle (by decide)
  · intro hclaim
    exact List.cons_ne_nil _ _ (hclaim s hs k hk _ _ hboth.2)

end RakNetTransport

end Stormancer.RakNet.Closing
