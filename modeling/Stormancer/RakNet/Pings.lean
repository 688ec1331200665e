import Stormancer.Lib.Run
import Stormancer.Lib.Waiters
import Stormancer.Lib.Heap
import Stormancer.Utilities.StringSplit

/-!
# Pings

`sendPing` makes a completion event, puts a copy of it into `_pendingPings` under the address,
and leaves another one to the continuation that runs when the pings are sent. A pong sets the
event that it finds under its address. The last continuation of the call erases the entry of the
address, whoever put it there; when the last copy of an event that was not set goes, the task on
it is canceled.

Results:
1. `pings_served`: as long as no ping is sent to an address while another one to it is under way,
   a pong completes every ping for its address, and the end of a ping keeps the entries of others.
   A step leads out of this exactly when it sends such a ping.
2. `second_ping_lost`: two pings to one address; the pong completes the first only.
-/

namespace Stormancer.RakNet

/-! ## Definitions -/

/-- The state of the task on a completion event. `pendingCancel`: its token is canceled, and the
task ends as canceled once the event is set or gone. -/
inductive EventTask
  | pending
  | pendingCancel
  | completed (value : Int)
  | canceled
deriving DecidableEq

namespace EventTask

def isDone : EventTask → Bool
  | .pending | .pendingCancel => false
  | .completed _ | .canceled => true

/-- `set` of the event. Only the first one counts. -/
def set (value : Int) : EventTask → EventTask
  | .pending => .completed value
  | .pendingCancel => .canceled
  | task => task

/-- The last copy of the event is destroyed. -/
def destroy : EventTask → EventTask
  | .pending | .pendingCancel => .canceled
  | task => task

def cancel : EventTask → EventTask
  | .pending => .pendingCancel
  | task => task

end EventTask

/-- A call of `sendPing`. -/
structure Ping where
  address : Str
  nb : Nat
  /-- `eventSetTask`. -/
  task : EventTask
  /-- The continuation of `when_all` is still there, and its copy of the event with it. -/
  sending : Bool
  /-- The state of `cts`. -/
  isCanceled : Bool
  /-- The task of `cancel_after_timeout` was canceled. -/
  timedOut : Bool
  /-- The result of the call. -/
  returned : Option Int
deriving DecidableEq

/-- Where a call waits until it returns. -/
def Ping.waitsFor (p : Ping) : Option Str := if p.returned.isNone then some p.address else none

/-- The calls of `sendPing` so far, and `_pendingPings`, which leads to the call whose event the
entry holds. -/
structure Pings where
  pings : List Ping
  pendingPings : Slots.Table Str Nat
deriving DecidableEq

inductive PingAction
  | sendPing (address : Str) (nb : Nat)
  /-- `ID_UNCONNECTED_PONG`. -/
  | pong (address : Str) (value : Int)
  /-- All pings of a call are sent, with these results. -/
  | sent (i : Nat) (results : List Bool)
  /-- The pings that were not sent yet are canceled. -/
  | sendsCanceled (i : Nat)
  /-- The token that was given to the call is canceled. -/
  | cancel (i : Nat)
  /-- 1500 ms have gone by. -/
  | timeout (i : Nat)
  /-- The last continuation of the call. -/
  | finish (i : Nat)

namespace Pings

def init : Pings := ⟨[], ∅⟩

def modify (s : Pings) (i : Nat) (f : Ping → Ping) : Pings := { s with pings := s.pings.modify i f }

/-- A copy of the event of the call is left. -/
def isHeld (s : Pings) (i : Nat) : Bool :=
  s.pings[i]?.any fun p => p.sending || s.pendingPings.lookup p.address = some i

/-- A copy of the event of a call was destroyed. -/
def release (s : Pings) (i : Nat) : Pings :=
  if s.isHeld i then s else s.modify i fun p => { p with task := p.task.destroy }

def sendPing (s : Pings) (address : Str) (nb : Nat) : Pings :=
  { pings := s.pings ++ [⟨address, nb, .pending, true, false, false, none⟩]
    pendingPings := s.pendingPings.emplace address s.pings.length }

def pong (s : Pings) (address : Str) (value : Int) : Pings :=
  match s.pendingPings.lookup address with
  | none => s
  | some i => s.modify i fun p => { p with task := p.task.set value }

def sent (s : Pings) (i : Nat) (p : Ping) (results : List Bool) : Option Pings :=
  if p.sending && results.length = p.nb then
    let s := s.modify i fun p =>
      { p with task := if results.any id then p.task else p.task.set (-1), sending := false }
    some (s.release i)
  else none

def sendsCanceled (s : Pings) (i : Nat) (p : Ping) : Option Pings :=
  if p.sending && p.isCanceled then
    some ((s.modify i fun p => { p with sending := false }).release i)
  else none

/-- The source of the sends is linked to the token of the call. -/
def cancel (s : Pings) (i : Nat) : Pings :=
  s.modify i fun p => { p with task := p.task.cancel, isCanceled := true }

/-- `cancel_after_timeout`, for a task that is not done. -/
def timeout (s : Pings) (i : Nat) (p : Ping) : Option Pings :=
  if p.task.isDone || p.timedOut then none
  else some (s.modify i fun p => { p with isCanceled := true, timedOut := true })

/-- `_pendingPings.erase(address)`. -/
def erase (s : Pings) (address : Str) : Pings :=
  match s.pendingPings.lookup address with
  | none => s
  | some i => { s with pendingPings := s.pendingPings.erase address }.release i

/-- What the call returns. -/
def result (p : Ping) : Int :=
  if p.timedOut then -1
  else
    match p.task with
    | .completed value => value
    | _ => -1

def finish (s : Pings) (i : Nat) (p : Ping) : Option Pings :=
  if p.returned.isNone && (p.task.isDone || p.timedOut) then
    some ((s.erase p.address).modify i fun q => { q with returned := some (result p) })
  else none

def step (s : Pings) : PingAction → Option Pings
  | .sendPing address nb => some (s.sendPing address nb)
  | .pong address value => some (s.pong address value)
  | .sent i results => s.pings[i]?.bind fun p => s.sent i p results
  | .sendsCanceled i => s.pings[i]?.bind fun p => s.sendsCanceled i p
  | .cancel i => some (s.cancel i)
  | .timeout i => s.pings[i]?.bind fun p => s.timeout i p
  | .finish i => s.pings[i]?.bind fun p => s.finish i p

/-! ## The property -/

/-- A pong sets the event of every call for its address that has not ended, and a call that ends
leaves the entries of the others in the table. -/
structure Served (s : Pings) : Prop where
  pong_completes : ∀ (address : Str) (value : Int) (i : Nat) (p : Ping), s.pings[i]? = some p →
    p.address = address → p.returned = none →
    ∃ p', (s.pong address value).pings[i]? = some p' ∧ p'.task = p.task.set value
  finish_keeps : ∀ (i : Nat) (p : Ping) (s' : Pings), s.pings[i]? = some p →
    s.finish i p = some s' → ∀ (j : Nat) (q : Ping), j ≠ i → s.pings[j]? = some q →
    s.pendingPings.lookup q.address = some j → s'.pendingPings.lookup q.address = some j

/-- A ping is sent to an address only when the earlier ones to it have ended. -/
def isAlone (s : Pings) : PingAction → Bool
  | .sendPing address _ => s.pings.all fun p => p.address ≠ address || p.returned.isSome
  | _ => true

abbrev Alone (s : Pings) (a : PingAction) : Prop := s.isAlone a = true

def waits (s : Pings) (i : Nat) : Option Str := s.pings[i]?.bind Ping.waitsFor

/-! ## Helpers -/

namespace PingsLemmas

variable {s s' : Pings} {i j : Nat} {p q : Ping} {address : Str}

theorem waitsFor_eq : p.waitsFor = some address ↔ p.returned = none ∧ p.address = address := by
  unfold Ping.waitsFor
  cases p.returned <;> simp

theorem waits_eq : s.waits i = some address ↔
    ∃ p, s.pings[i]? = some p ∧ p.returned = none ∧ p.address = address := by
  unfold waits
  rw [Option.bind_eq_some_iff]
  exact exists_congr fun p => and_congr_right fun _ => waitsFor_eq

theorem pings_modify (s : Pings) (i j : Nat) (f : Ping → Ping) :
    (s.modify i f).pings[j]? = s.pings[j]?.map fun p => if i = j then f p else p :=
  List.getElem?_modify f i s.pings j

/-- Where the calls wait does not depend on their events. -/
theorem waits_modify {f : Ping → Ping} (hf : ∀ p, (f p).waitsFor = p.waitsFor) :
    (s.modify i f).waits = s.waits := by
  funext j
  unfold waits
  rw [pings_modify]
  cases s.pings[j]? with
  | none => rfl
  | some p =>
    rw [Option.map_some, Option.bind_some, Option.bind_some]
    split
    · exact hf p
    · rfl

theorem waits_release (s : Pings) (i : Nat) : (s.release i).waits = s.waits := by
  unfold release
  split
  · rfl
  · exact waits_modify fun _ => rfl

theorem pendingPings_release (s : Pings) (i : Nat) :
    (s.release i).pendingPings = s.pendingPings := by
  unfold release
  split <;> rfl

/-- A call changes and gives up its copy of the event. -/
theorem frame_drop {f : Ping → Ping} (hf : ∀ p, (f p).waitsFor = p.waitsFor) :
    ((s.modify i f).release i).waits = s.waits ∧
      ((s.modify i f).release i).pendingPings = s.pendingPings := by
  rw [waits_release, pendingPings_release]
  exact ⟨waits_modify hf, rfl⟩

theorem waits_erase (s : Pings) (address : Str) : (s.erase address).waits = s.waits := by
  unfold erase
  split
  · rfl
  · exact waits_release _ _

theorem lookup_erase (s : Pings) (address address' : Str) :
    (s.erase address).pendingPings.lookup address' =
      if address' = address then none else s.pendingPings.lookup address' := by
  unfold erase
  split
  · next hnone =>
    split
    · next heq => rw [heq, hnone]
    · rfl
  · rw [pendingPings_release]
    exact Slots.Table.lookup_erase_eq s.pendingPings address address'

theorem waits_sendPing (s : Pings) (address : Str) (nb i : Nat) :
    (s.sendPing address nb).waits i = if i = s.pings.length then some address else s.waits i := by
  unfold waits sendPing
  rw [Heap.get_make]
  split <;> rfl

theorem waits_new (s : Pings) : s.waits s.pings.length = none := by
  unfold waits
  rw [List.getElem?_eq_none (Nat.le_refl _), Option.bind_none]

/-- What a call does when it ends. -/
theorem finish_some (h : s.finish i p = some s') : p.returned = none ∧
    s' = (s.erase p.address).modify i fun q => { q with returned := some (result p) } := by
  unfold finish at h
  split at h
  · next hif =>
    cases h
    exact ⟨Option.isNone_iff_eq_none.mp (Bool.and_eq_true_iff.mp hif).1, rfl⟩
  · cases h

theorem waits_finish (h : s.finish i p = some s') (j : Nat) :
    s'.waits j = if j = i then none else s.waits j := by
  obtain ⟨-, rfl⟩ := finish_some h
  rw [← waits_erase s p.address]
  unfold waits
  rw [pings_modify]
  cases (s.erase p.address).pings[j]? with
  | none => simp
  | some q =>
    rw [Option.map_some, Option.bind_some, Option.bind_some]
    split
    · next heq => rw [if_pos heq.symm]; rfl
    · next hne => rw [if_neg (Ne.symm hne)]

/-- The steps other than a new ping and the end of one leave the calls where they wait. -/
theorem step_frame {a : PingAction} (h : s.step a = some s')
    (hsend : ∀ address nb, a ≠ .sendPing address nb) (hfinish : ∀ i, a ≠ .finish i) :
    s'.waits = s.waits ∧ s'.pendingPings = s.pendingPings := by
  cases a with
  | sendPing address nb => exact absurd rfl (hsend address nb)
  | finish i => exact absurd rfl (hfinish i)
  | pong address value =>
    cases h
    unfold pong
    split
    · exact ⟨rfl, rfl⟩
    · exact ⟨waits_modify fun _ => rfl, rfl⟩
  | cancel i =>
    cases h
    exact ⟨waits_modify fun _ => rfl, rfl⟩
  | sent i results =>
    obtain ⟨p, -, hsent⟩ := Option.bind_eq_some_iff.mp h
    unfold sent at hsent
    split at hsent
    · cases hsent
      exact frame_drop fun _ => rfl
    · cases hsent
  | sendsCanceled i =>
    obtain ⟨p, -, hsends⟩ := Option.bind_eq_some_iff.mp h
    unfold sendsCanceled at hsends
    split at hsends
    · cases hsends
      exact frame_drop fun _ => rfl
    · cases hsends
  | timeout i =>
    obtain ⟨p, -, htimeout⟩ := Option.bind_eq_some_iff.mp h
    unfold timeout at htimeout
    split at htimeout
    · cases htimeout
    · cases htimeout
      exact ⟨waits_modify fun _ => rfl, rfl⟩

end PingsLemmas

open PingsLemmas Waiters

/-! ## Each ping has its own entry -/

variable {s s' : Pings}

/-- On such states a ping is alone exactly when its address is free. -/
theorem isAlone_iff (hs : Paired s.waits s.pendingPings) (address : Str) (nb : Nat) :
    s.Alone (.sendPing address nb) ↔ s.pendingPings.lookup address = none := by
  unfold Alone isAlone
  rw [Paired.free_iff_forall hs, List.all_eq_true]
  refine forall₂_congr fun p _ => Iff.trans ?_ (not_congr waitsFor_eq).symm
  cases p.returned <;> simp

theorem paired_step {a : PingAction} (hs : Paired s.waits s.pendingPings) (halone : s.Alone a)
    (h : s.step a = some s') : Paired s'.waits s'.pendingPings := by
  by_cases hsend : ∃ address nb, a = .sendPing address nb
  · obtain ⟨address, nb, rfl⟩ := hsend
    cases h
    have hfree := (isAlone_iff hs address nb).mp halone
    refine hs.add (waits_new s) hfree (waits_sendPing s address nb) fun address' => ?_
    exact (Slots.Table.lookup_emplace _ _ _ _).trans (by rw [hfree, Option.getD_none])
  by_cases hfinish : ∃ i, a = .finish i
  · obtain ⟨i, rfl⟩ := hfinish
    obtain ⟨p, hp, hend⟩ := Option.bind_eq_some_iff.mp h
    obtain ⟨hreturned, hs'⟩ := finish_some hend
    refine hs.remove (waits_eq.mpr ⟨p, hp, hreturned, rfl⟩) (waits_finish hend) fun address' => ?_
    rw [hs']
    exact lookup_erase s p.address address'
  · obtain ⟨hwaits, hpending⟩ := step_frame h (fun address nb heq => hsend ⟨address, nb, heq⟩)
      fun i heq => hfinish ⟨i, heq⟩
    rw [hwaits, hpending]
    exact hs

theorem served_of_paired (hs : Paired s.waits s.pendingPings) : s.Served := by
  constructor
  case pong_completes =>
    intro address value i p hp haddress hreturned
    have hentry := (hs i address).mp (waits_eq.mpr ⟨p, hp, hreturned, haddress⟩)
    unfold pong
    rw [hentry]
    dsimp only
    rw [pings_modify, hp, Option.map_some, if_pos rfl]
    exact ⟨_, rfl, rfl⟩
  case finish_keeps =>
    intro i p s' hp hend j q hne hq hentry
    obtain ⟨hreturned, rfl⟩ := finish_some hend
    refine (lookup_erase s p.address q.address).trans ?_
    split
    · next heq =>
      rw [heq] at hentry
      have hi := (hs i p.address).mp (waits_eq.mpr ⟨p, hp, hreturned, rfl⟩)
      exact absurd (Option.some.inj (hentry.symm.trans hi)) hne
    · exact hentry

/-- A ping that is sent while another one to its address is under way is not found by a pong. -/
theorem not_served_of_taken {address : Str} {i : Nat} (hi : i ≠ s.pings.length)
    (htaken : s.pendingPings.lookup address = some i) (nb : Nat) :
    ¬ (s.sendPing address nb).Served := by
  intro hserved
  have hnew : (s.sendPing address nb).pings[s.pings.length]? =
      some ⟨address, nb, .pending, true, false, false, none⟩ := List.getElem?_concat_length
  have hentry : (s.sendPing address nb).pendingPings.lookup address = some i := by
    unfold sendPing
    rw [Slots.Table.lookup_emplace, if_pos rfl, htaken]
    rfl
  obtain ⟨p', hp', htask⟩ := hserved.pong_completes address 0 _ _ hnew rfl rfl
  unfold pong at hp'
  rw [hentry] at hp'
  dsimp only at hp'
  rw [pings_modify, hnew, Option.map_some, if_neg hi] at hp'
  cases hp'
  cases htask

/-! ## Runs -/

/-- In every run in which no `sendPing` is for an address that has a call in progress, all calls are
served, and a further step keeps that exactly when it is no such call. -/
theorem pings_served (h : Lts.Reachable step Alone init s) :
    s.Served ∧ ∀ (a : PingAction) (s' : Pings), s.step a = some s' → (s'.Served ↔ s.Alone a) := by
  have hs : Paired s.waits s.pendingPings :=
    h.invariant (I := fun s => Paired s.waits s.pendingPings) Paired.empty
      fun _ _ _ hs halone hstep => paired_step hs halone hstep
  refine ⟨served_of_paired hs, fun a s' hstep => ⟨fun hserved => ?_, fun halone => ?_⟩⟩
  · cases a with
    | sendPing address nb =>
      rw [isAlone_iff hs]
      cases htaken : s.pendingPings.lookup address with
      | none => rfl
      | some i =>
        cases hstep
        have hwaits := (hs i address).mpr htaken
        have hi : i ≠ s.pings.length := by
          rintro rfl
          cases (waits_new s).symm.trans hwaits
        exact absurd hserved (not_served_of_taken hi htaken nb)
    | _ => rfl
  · exact served_of_paired (paired_step hs halone hstep)

/-- Pings to two addresses at once: the one that was sent last ends first. -/
theorem pings_served_two_addresses :
    ∃ s : Pings, (s.pings[1]?.any fun p => p.returned = some 12) = true ∧ s.Served ∧
      ∀ (a : PingAction) (s' : Pings), s.step a = some s' → (s'.Served ↔ s.Alone a) := by
  obtain ⟨s, hreach, htest⟩ := Lts.Reachable.of_exec step Alone init
    [.sendPing "10.0.0.1:80".toList 2, .sendPing "10.0.0.2:80".toList 2,
      .pong "10.0.0.2:80".toList 12, .finish 1]
    (fun s => s.pings[1]?.any fun p => p.returned = some 12) (by decide +kernel)
  exact ⟨s, htest, pings_served hreach⟩

/-- Two pings to one address: the pong leaves the second without an answer. -/
theorem second_ping_lost : ¬ ∀ s, Lts.Reachable step Lts.anyStep init s → s.Served := by
  intro hall
  obtain ⟨s, hreach, htest⟩ := Lts.Reachable.of_exec step Lts.anyStep init
    [.sendPing "10.0.0.1:80".toList 2, .sendPing "10.0.0.1:80".toList 2]
    (fun s => (s.pong "10.0.0.1:80".toList 12).pings[1]?.map (·.task) = some .pending &&
      s.pings[1]? = some ⟨"10.0.0.1:80".toList, 2, .pending, true, false, false, none⟩)
    (by decide +kernel)
  obtain ⟨hpong, hping⟩ := Bool.and_eq_true_iff.mp htest
  obtain ⟨p, hp, htask⟩ := (hall s hreach).pong_completes "10.0.0.1:80".toList 12 1 _
    (of_decide_eq_true hping) rfl rfl
  have hpending := of_decide_eq_true hpong
  rw [hp, Option.map_some, htask] at hpending
  cases hpending

end Pings

end Stormancer.RakNet
