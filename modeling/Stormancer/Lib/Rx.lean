import Mathlib.Data.List.Basic

/-!
# Subscribers of an observable

The contract between an observable and its subscriber: a sequence of values, then at most one
terminal notification, and nothing after it. A subscriber that has ended, by a terminal
notification or because its owner unsubscribed, drops whatever it is sent. The teardown of a
subscriber runs when it goes from subscribed to ended; what the teardown does is up to the
source, so it is not part of this module.

`Subscriber` carries the contract as fields, so every value of the type meets it.
`Subscriber.terminals_le_one` and `Subscriber.terminals_eq_one` count the terminals.
-/

namespace Rx

/-! ## Definitions -/

/-- What an observer receives. -/
inductive Notification (ν ε : Type)
  | next (value : ν)
  | error (reason : ε)
  | completed
deriving DecidableEq, Repr

variable {ν ε : Type}

/-- An error or a completion ends the sequence. -/
def Notification.isTerminal : Notification ν ε → Bool
  | .next _ => false
  | .error _ => true
  | .completed => true

/-- The number of terminal notifications of a sequence. -/
def terminals (l : List (Notification ν ε)) : Nat := l.countP Notification.isTerminal

/-- Values, then at most one terminal, and nothing after it. -/
def Grammar (l : List (Notification ν ε)) : Prop :=
  ∀ pre n post, l = pre ++ n :: post → n.isTerminal = true → post = []

/-- A subscriber with the notifications its observer has received. -/
structure Subscriber (ν ε : Type) where
  isSubscribed : Bool
  received : List (Notification ν ε)
  grammar : Grammar received
  no_terminal : isSubscribed = true → terminals received = 0

/-! ## The grammar -/

theorem terminals_append (l l' : List (Notification ν ε)) :
    terminals (l ++ l') = terminals l + terminals l' := by
  simp [terminals, List.countP_append]

theorem grammar_of_no_terminal {l : List (Notification ν ε)} (h : terminals l = 0) :
    Grammar l := by
  intro pre n post hl hn
  have hmem : n ∈ l := by simp [hl]
  rw [terminals, List.countP_eq_zero] at h
  exact absurd hn (h n hmem)

theorem grammar_snoc {l : List (Notification ν ε)} (h : terminals l = 0)
    (n : Notification ν ε) : Grammar (l ++ [n]) := by
  intro pre m post hl hm
  rcases List.eq_nil_or_concat post with rfl | ⟨post', k, rfl⟩
  · rfl
  · have hm' : m ∈ l := by
      rw [List.concat_eq_append, ← List.cons_append, ← List.append_assoc] at hl
      have := (List.append_inj' hl rfl).1
      simp [this]
    rw [terminals, List.countP_eq_zero] at h
    exact absurd hm (h m hm')

theorem Grammar.terminals_le_one {l : List (Notification ν ε)} (h : Grammar l) :
    terminals l ≤ 1 := by
  induction l with
  | nil => simp [terminals]
  | cons n l ih =>
    cases hn : n.isTerminal with
    | true =>
      have : l = [] := h [] n l rfl hn
      simp [terminals, this, hn]
    | false =>
      have hl : Grammar l := fun pre m post hpre hm => h (n :: pre) m post (by simp [hpre]) hm
      simpa [terminals, List.countP_cons, hn] using ih hl

/-! ## Operations -/

namespace Subscriber

/-- A subscriber that has received nothing. -/
def fresh : Subscriber ν ε where
  isSubscribed := true
  received := []
  grammar := grammar_of_no_terminal rfl
  no_terminal := fun _ => rfl

/-- A terminal notification: dropped when the subscriber has ended, else it ends it. -/
def terminate (o : Subscriber ν ε) (n : Notification ν ε) : Subscriber ν ε :=
  if h : o.isSubscribed = true then
    { isSubscribed := false
      received := o.received ++ [n]
      grammar := grammar_snoc (o.no_terminal h) n
      no_terminal := fun hf => nomatch hf }
  else o

def onError (o : Subscriber ν ε) (reason : ε) : Subscriber ν ε := o.terminate (.error reason)

def onCompleted (o : Subscriber ν ε) : Subscriber ν ε := o.terminate .completed

/-- A value: dropped when the subscriber has ended. -/
def accept (o : Subscriber ν ε) (value : ν) : Subscriber ν ε :=
  if h : o.isSubscribed = true then
    have h0 : terminals (o.received ++ [.next value]) = 0 := by
      rw [terminals_append, o.no_terminal h]
      rfl
    { isSubscribed := true
      received := o.received ++ [.next value]
      grammar := grammar_of_no_terminal h0
      no_terminal := fun _ => h0 }
  else o

/-- A value whose handler may throw: the error then goes to the same observer and ends it. -/
def onNext (o : Subscriber ν ε) (value : ν) (thrown : Option ε) : Subscriber ν ε :=
  match thrown with
  | none => o.accept value
  | some reason => (o.accept value).onError reason

/-- The owner gives the subscription up. -/
def unsubscribe (o : Subscriber ν ε) : Subscriber ν ε where
  isSubscribed := false
  received := o.received
  grammar := o.grammar
  no_terminal := fun hf => nomatch hf

/-! ## What the operations do -/

@[simp] theorem fresh_isSubscribed : (fresh : Subscriber ν ε).isSubscribed = true := rfl

@[simp] theorem fresh_received : (fresh : Subscriber ν ε).received = [] := rfl

theorem terminals_le_one (o : Subscriber ν ε) : terminals o.received ≤ 1 :=
  o.grammar.terminals_le_one

@[simp] theorem terminate_isSubscribed (o : Subscriber ν ε) (n : Notification ν ε) :
    (o.terminate n).isSubscribed = false := by
  unfold terminate
  split
  · rfl
  · next h => simpa using h

theorem terminate_of_ended {o : Subscriber ν ε} (h : o.isSubscribed = false)
    (n : Notification ν ε) : o.terminate n = o := by
  simp [terminate, h]

theorem terminate_received {o : Subscriber ν ε} (h : o.isSubscribed = true)
    (n : Notification ν ε) : (o.terminate n).received = o.received ++ [n] := by
  simp [terminate, h]

theorem accept_received {o : Subscriber ν ε} (h : o.isSubscribed = true) (value : ν) :
    (o.accept value).received = o.received ++ [.next value] := by
  simp [accept, h]

theorem accept_of_ended {o : Subscriber ν ε} (h : o.isSubscribed = false) (value : ν) :
    o.accept value = o := by
  simp [accept, h]

@[simp] theorem accept_isSubscribed (o : Subscriber ν ε) (value : ν) :
    (o.accept value).isSubscribed = o.isSubscribed := by
  unfold accept
  split
  · next h => exact h.symm
  · rfl

theorem unsubscribe_of_ended {o : Subscriber ν ε} (h : o.isSubscribed = false) :
    o.unsubscribe = o := by
  cases o
  cases h
  rfl

/-- An operation on a subscriber that never revives it and that ends it only by a terminal. -/
structure Reports (f : Subscriber ν ε → Subscriber ν ε) : Prop where
  stays_ended : ∀ o, o.isSubscribed = false → f o = o
  reports : ∀ o, o.isSubscribed = true → (f o).isSubscribed = false →
    terminals (f o).received = 1

theorem reports_terminate {n : Notification ν ε} (hn : n.isTerminal = true) :
    Reports (fun o : Subscriber ν ε => o.terminate n) where
  stays_ended _ h := terminate_of_ended h n
  reports o h _ := by
    rw [terminate_received h, terminals_append, o.no_terminal h]
    simp [terminals, hn]

theorem reports_onError (reason : ε) : Reports (fun o : Subscriber ν ε => o.onError reason) :=
  reports_terminate rfl

theorem reports_onCompleted : Reports (onCompleted : Subscriber ν ε → Subscriber ν ε) :=
  reports_terminate rfl

theorem reports_onNext (value : ν) (thrown : Option ε) :
    Reports (fun o : Subscriber ν ε => o.onNext value thrown) where
  stays_ended o h := by
    cases thrown with
    | none => exact accept_of_ended h value
    | some reason =>
      show (o.accept value).onError reason = o
      rw [accept_of_ended h]
      exact terminate_of_ended h _
  reports o h he := by
    cases thrown with
    | none =>
      have : (o.accept value).isSubscribed = false := he
      simp [h] at this
    | some reason =>
      exact (reports_onError reason).reports (o.accept value) (by simpa using h) he

end Subscriber

end Rx
