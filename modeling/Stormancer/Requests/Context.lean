import Mathlib.Data.List.TakeWhile
import Stormancer.Packets.Dispatcher

/-!
# The callee side of `RequestProcessor`

`RequestContext`, and the processor of system requests, which runs a handler and ends the request
when the handler has not. What a handler does to its context is a list of calls, and then it
succeeds or fails; what a call throws only reaches the handler.

The writer of a message is the bytes that it writes, or what it throws; `connection->send` may
throw as well. A message is emitted when neither throws. The flags of the context are set before.
A text is a list of bytes, as a `std::string` is.

Results:
1. `emitted_handled`: what a handler and the processor emit.
2. `followsProtocol_iff`: when the messages of a request are values and one end.
-/

namespace Stormancer.Requests

open Packets (IByteStream)

/-! ## The context -/

abbrev Text := List UInt8

/-- The bytes of a string literal. -/
def ascii (s : String) : Text := s.toList.map fun c => UInt8.ofNat c.toNat

/-- A message for a request. -/
inductive Reply
  | msg (payload : List UInt8)
  | complete (didSendValues : Bool)
  | error (payload : List UInt8)
deriving DecidableEq

/-- The message ends the request. -/
def Reply.isTerminal : Reply → Bool
  | .msg _ => false
  | .complete _ | .error _ => true

structure RequestContext where
  requestId : UInt16
  /-- The parameters of the request. -/
  inputStream : IByteStream
  didSendValues : Bool
  isComplete : Bool
  /-- What was handed to the connection. -/
  emitted : List Reply
deriving DecidableEq

/-- A call of a handler; `thrown` is what the writer or `connection->send` throws. -/
inductive ContextCall
  | send (payload : List UInt8) (thrown : Option String)
  | complete (thrown : Option String)
  | error (payload : List UInt8) (thrown : Option String)
deriving DecidableEq

namespace ContextCall

def thrown : ContextCall → Option String
  | send _ thrown | complete thrown | error _ thrown => thrown

def isSend : ContextCall → Bool
  | send .. => true
  | complete _ | error .. => false

def isComplete : ContextCall → Bool
  | complete _ => true
  | send .. | error .. => false

/-- The call ends the request, if it does not throw. -/
def isTerminal : ContextCall → Bool
  | send .. => false
  | complete _ | error .. => true

end ContextCall

/-- How a handler ends: it succeeds, it throws a `std::exception`, its task ends with one, or with
something else that was thrown. -/
inductive Outcome
  | success
  | threw (what : Text)
  | failed (what : Text)
  | other
deriving DecidableEq

namespace RequestContext

/-- `RequestContext::RequestContext`, once the id has been read from the packet. -/
def create (requestId : UInt16) (unread : List UInt8) : RequestContext where
  requestId := requestId
  inputStream := .ofBytes unread
  didSendValues := false
  isComplete := false
  emitted := []

/-- `connection->send`: the message is emitted, or something is thrown. -/
def emit (c : RequestContext) (reply : Reply) (thrown : Option String) :
    RequestContext × Option String :=
  match thrown with
  | none => ({ c with emitted := c.emitted ++ [reply] }, none)
  | some what => (c, some what)

/-- The context afterwards, and what the call throws. -/
def send (c : RequestContext) (payload : List UInt8) (thrown : Option String) :
    RequestContext × Option String :=
  if c.isComplete then (c, some "The request is already completed.")
  else { c with didSendValues := true }.emit (.msg payload) thrown

def complete (c : RequestContext) (thrown : Option String) : RequestContext × Option String :=
  { c with isComplete := true }.emit (.complete c.didSendValues) thrown

def error (c : RequestContext) (payload : List UInt8) (thrown : Option String) :
    RequestContext × Option String :=
  c.emit (.error payload) thrown

/-- The context after a call. -/
def call (c : RequestContext) : ContextCall → RequestContext
  | .send payload thrown => (c.send payload thrown).1
  | .complete thrown => (c.complete thrown).1
  | .error payload thrown => (c.error payload thrown).1

def run (c : RequestContext) (calls : List ContextCall) : RequestContext := calls.foldl call c

end RequestContext

/-! ## The processor -/

/-- What the processor of system requests uses of the libraries. -/
structure Libraries where
  /-- `what()` of a copy of an exception as a `std::exception`, from its own `what()`. -/
  copied : Text → Text
  /-- `Serializer::serialize` for a `std::string`. -/
  serialize : Text → List UInt8

/-- What `ex.what()` gives in the message about the failure: the writer captures the exception by
value as a `std::exception`. `invokeWrapping` has already copied what the handler throws. -/
def Outcome.what (lib : Libraries) : Outcome → Option Text
  | .success | .other => none
  | .threw what => some (lib.copied (lib.copied what))
  | .failed what => some (lib.copied what)

/-- The continuation of the task of the handler: `thrown` is what `connection->send` throws, which
ends up in the task of the continuation. -/
def RequestContext.finish (lib : Libraries) (c : RequestContext) (outcome : Outcome)
    (thrown : Option String) : RequestContext :=
  match outcome with
  | .success => if c.isComplete then c else (c.complete thrown).1
  | .threw _ | .failed _ =>
    if c.isComplete then c
    else (c.error (lib.serialize
      (ascii "An error occured on the server. " ++ (outcome.what lib).getD [])) thrown).1
  | .other => c

/-- The context of a request at the end. -/
def RequestContext.handled (lib : Libraries) (c : RequestContext) (calls : List ContextCall)
    (outcome : Outcome) (thrown : Option String) : RequestContext :=
  (c.run calls).finish lib outcome thrown

/-! ## The property and the condition -/

/-- Zero or more values, then one end and nothing after it; a completion says whether there were
values. -/
def FollowsProtocol (emitted : List Reply) : Prop :=
  ∃ values last, emitted = values ++ [last] ∧ (∀ m ∈ values, m.isTerminal = false) ∧
    match last with
    | .msg _ => False
    | .complete flag => flag = true ↔ values ≠ []
    | .error _ => True

section Condition

variable (calls : List ContextCall)

/-- The calls before the first `complete`. -/
def beforeComplete : List ContextCall := calls.takeWhile fun x => !x.isComplete

/-- The first `complete`, and the calls after it. -/
def fromComplete : List ContextCall := calls.dropWhile fun x => !x.isComplete

/-- The calls before the first `complete` that do not throw. -/
def emittedBefore : List ContextCall := (beforeComplete calls).filter fun x => x.thrown = none

/-- The ends from the first `complete` on that do not throw. -/
def endsAfter : List ContextCall :=
  (fromComplete calls).filter fun x => x.thrown = none ∧ x.isTerminal = true

/-- Calls that send only. -/
def Sends : Prop := ∀ x ∈ calls, x.isSend = true

/-- When `send` is called in time, some call before the first `complete` does not throw. -/
def FlagHolds : Prop :=
  (beforeComplete calls).any ContextCall.isSend = true → emittedBefore calls ≠ []

/-- Calls that throw aside, before the first `complete` the handler only sends, and
* it never completes, ends with success or a `std::exception`, and the processor ends the request;
* or it ends the request once from there on;
* or its last call before is an error, it does not end the request again, and neither does the
  processor, because of a `complete`, of an outcome that is no `std::exception` or of what its own
  message throws.

Where the request is completed, the flag is that of a handler that has sent a value. -/
def Proper (outcome : Outcome) (thrown : Option String) : Prop :=
  (Sends (emittedBefore calls) ∧ fromComplete calls = [] ∧ outcome ≠ .other ∧ thrown = none ∧
      (outcome = .success → FlagHolds calls)) ∨
    (Sends (emittedBefore calls) ∧ endsAfter calls = [.complete none] ∧ FlagHolds calls) ∨
    (∃ payload, Sends (emittedBefore calls) ∧ endsAfter calls = [.error payload none]) ∨
    ∃ values payload, emittedBefore calls = values ++ [.error payload none] ∧ Sends values ∧
      endsAfter calls = [] ∧ (fromComplete calls ≠ [] ∨ outcome = .other ∨ thrown ≠ none)

end Condition

namespace ContextLemmas

variable {lib : Libraries} {c : RequestContext} {calls : List ContextCall} {outcome : Outcome}
  {thrown : Option String}

/-! ## What is emitted -/

/-- The message of a call, if the flag is set or not. -/
def reply (flag : Bool) : ContextCall → Reply
  | .send payload _ => .msg payload
  | .complete _ => .complete flag
  | .error payload _ => .error payload

theorem isTerminal_reply (flag : Bool) (x : ContextCall) :
    (reply flag x).isTerminal = x.isTerminal := by
  cases x <;> rfl

/-- A call before the first `complete`. -/
theorem call_open (hopen : c.isComplete = false) {x : ContextCall} (hx : x.isComplete = false)
    (flag : Bool) :
    c.call x = { c with
      didSendValues := c.didSendValues || x.isSend
      emitted := c.emitted ++ if x.thrown = none then [reply flag x] else [] } := by
  cases x with
  | send payload thrown =>
    cases thrown <;>
      simp [RequestContext.call, RequestContext.send, hopen, RequestContext.emit, reply,
        ContextCall.isSend, ContextCall.thrown]
  | complete thrown => cases hx
  | error payload thrown =>
    cases thrown <;>
      simp [RequestContext.call, RequestContext.error, RequestContext.emit, reply,
        ContextCall.isSend, ContextCall.thrown]

/-- The calls before the first `complete`. -/
theorem run_open (hopen : c.isComplete = false) (h : ∀ x ∈ calls, x.isComplete = false)
    (flag : Bool) :
    c.run calls = { c with
      didSendValues := c.didSendValues || calls.any ContextCall.isSend
      emitted := c.emitted ++ (calls.filter fun x => x.thrown = none).map (reply flag) } := by
  induction calls generalizing c with
  | nil => simp [RequestContext.run]
  | cons x rest ih =>
    rw [RequestContext.run, List.foldl_cons, call_open hopen (h x List.mem_cons_self) flag]
    refine (ih ?_ fun y hy => h y (List.mem_cons_of_mem _ hy)).trans ?_
    · exact hopen
    · by_cases hx : x.thrown = none <;> simp [hx, Bool.or_assoc]

/-- A call of a request that is complete, or that completes it. -/
theorem call_closed {x : ContextCall} (h : c.isComplete = true ∨ x.isComplete = true) :
    c.call x = { c with
      isComplete := true
      emitted := c.emitted ++
        if x.thrown = none ∧ x.isTerminal = true then [reply c.didSendValues x] else [] } := by
  obtain ⟨requestId, inputStream, didSendValues, isComplete, emitted⟩ := c
  cases x with
  | send payload thrown =>
    obtain rfl : isComplete = true := h.resolve_right nofun
    simp [RequestContext.call, RequestContext.send, ContextCall.isTerminal]
  | complete thrown =>
    cases thrown <;>
      simp [RequestContext.call, RequestContext.complete, RequestContext.emit, reply,
        ContextCall.thrown, ContextCall.isTerminal]
  | error payload thrown =>
    obtain rfl : isComplete = true := h.resolve_right nofun
    cases thrown <;>
      simp [RequestContext.call, RequestContext.error, RequestContext.emit, reply,
        ContextCall.thrown, ContextCall.isTerminal]

/-- The calls from the first `complete` on: the flags stay, and only ends are emitted. -/
theorem run_closed (h : c.isComplete = true ∨ ∃ x ∈ calls.head?, x.isComplete = true) :
    c.run calls = { c with
      isComplete := true
      emitted := c.emitted ++ (calls.filter fun x => x.thrown = none ∧ x.isTerminal = true).map
        (reply c.didSendValues) } := by
  induction calls generalizing c with
  | nil =>
    obtain ⟨requestId, inputStream, didSendValues, isComplete, emitted⟩ := c
    obtain rfl : isComplete = true := h.resolve_right (by simp)
    simp [RequestContext.run]
  | cons x rest ih =>
    rw [RequestContext.run, List.foldl_cons, call_closed (h.imp_right (by simp))]
    refine (ih (.inl rfl)).trans ?_
    by_cases hx : x.thrown = none ∧ x.isTerminal = true <;> simp [hx]

theorem not_isComplete_of_mem {x : ContextCall} (h : x ∈ beforeComplete calls) :
    x.isComplete = false := by
  have hx := List.mem_takeWhile_imp h
  simpa using hx

theorem head_fromComplete (h : fromComplete calls ≠ []) :
    ∃ x ∈ (fromComplete calls).head?, x.isComplete = true := by
  refine ⟨(fromComplete calls).head h, List.head?_eq_some_head h, ?_⟩
  have hx := List.head_dropWhile_not (fun x : ContextCall => !x.isComplete) h
  exact Bool.eq_true_of_not_eq_false' hx

/-- The flag of a request that is completed. -/
def sentBefore (calls : List ContextCall) : Bool := (beforeComplete calls).any ContextCall.isSend

/-- What the handler does. -/
theorem run_create (id : UInt16) (unread : List UInt8) (calls : List ContextCall) :
    (RequestContext.create id unread).run calls = { RequestContext.create id unread with
      didSendValues := sentBefore calls
      isComplete := decide (fromComplete calls ≠ [])
      emitted := (emittedBefore calls ++ endsAfter calls).map (reply (sentBefore calls)) } := by
  have hsplit : beforeComplete calls ++ fromComplete calls = calls :=
    List.takeWhile_append_dropWhile
  have hopen : (RequestContext.create id unread).run (beforeComplete calls) = _ :=
    run_open rfl (fun _ => not_isComplete_of_mem) (sentBefore calls)
  conv_lhs => rw [← hsplit]
  unfold RequestContext.run at hopen ⊢
  rw [List.foldl_append, hopen]
  by_cases hnil : fromComplete calls = []
  · simp [hnil, endsAfter, sentBefore, emittedBefore, RequestContext.create]
  · refine (run_closed (.inr (head_fromComplete hnil))).trans ?_
    simp [hnil, endsAfter, sentBefore, emittedBefore, RequestContext.create]

/-- The message of the processor. -/
def ending (lib : Libraries) (calls : List ContextCall) (outcome : Outcome) : Reply :=
  match outcome with
  | .success => .complete (sentBefore calls)
  | _ => .error (lib.serialize
      (ascii "An error occured on the server. " ++ (outcome.what lib).getD []))

/-- What is emitted for a request. -/
theorem emitted_handled (lib : Libraries) (id : UInt16) (unread : List UInt8)
    (calls : List ContextCall) (outcome : Outcome) (thrown : Option String) :
    ((RequestContext.create id unread).handled lib calls outcome thrown).emitted =
      (emittedBefore calls ++ endsAfter calls).map (reply (sentBefore calls)) ++
        if fromComplete calls = [] ∧ outcome ≠ .other ∧ thrown = none
        then [ending lib calls outcome] else [] := by
  unfold RequestContext.handled
  rw [run_create]
  unfold RequestContext.finish
  by_cases hnil : fromComplete calls = []
  · cases outcome <;> cases thrown <;>
      simp [hnil, RequestContext.complete, RequestContext.error, RequestContext.emit, ending]
  · cases outcome <;> simp [hnil]

/-! ## Both directions -/

theorem followsProtocol_concat (l : List Reply) (last : Reply) :
    FollowsProtocol (l ++ [last]) ↔ (∀ m ∈ l, m.isTerminal = false) ∧ last.isTerminal = true ∧
      ∀ flag, last = .complete flag → (flag = true ↔ l ≠ []) := by
  constructor
  · rintro ⟨values, last', heq, hvalues, hlast⟩
    obtain ⟨rfl, hsame⟩ := List.append_inj' heq rfl
    obtain rfl := List.singleton_inj.mp hsame
    refine ⟨hvalues, ?_, ?_⟩
    · cases last with
      | msg payload => exact hlast.elim
      | complete flag => rfl
      | error payload => rfl
    · rintro flag rfl
      exact hlast
  · rintro ⟨hvalues, hterminal, hflag⟩
    refine ⟨l, last, rfl, hvalues, ?_⟩
    cases last with
    | msg payload => cases hterminal
    | complete flag => exact hflag flag rfl
    | error payload => trivial

theorem not_followsProtocol_nil : ¬ FollowsProtocol [] := by
  rintro ⟨values, last, heq, -⟩
  exact List.append_ne_nil_of_right_ne_nil values (List.cons_ne_nil last []) heq.symm

theorem isTerminal_eq_not_isSend (x : ContextCall) : x.isTerminal = !x.isSend := by
  cases x <;> rfl

theorem sends_iff (flag : Bool) (l : List ContextCall) :
    (∀ m ∈ l.map (reply flag), m.isTerminal = false) ↔ Sends l := by
  simp [Sends, isTerminal_reply, isTerminal_eq_not_isSend]

theorem of_mem_emittedBefore {x : ContextCall} (h : x ∈ emittedBefore calls) :
    x ∈ beforeComplete calls ∧ x.thrown = none := by
  simpa [emittedBefore] using h

theorem of_mem_endsAfter {x : ContextCall} (h : x ∈ endsAfter calls) :
    x.thrown = none ∧ x.isTerminal = true := by
  have hx := (List.mem_filter.mp h).2
  simpa using hx

/-- The flag of a completion is right. -/
theorem flag_iff (h : Sends (emittedBefore calls)) (flag : Bool) :
    (sentBefore calls = true ↔ (emittedBefore calls).map (reply flag) ≠ []) ↔
      FlagHolds calls := by
  have hback : emittedBefore calls ≠ [] → sentBefore calls = true := by
    intro hne
    obtain ⟨x, hx⟩ := List.exists_mem_of_ne_nil _ hne
    exact List.any_eq_true.mpr ⟨x, (of_mem_emittedBefore hx).1, h x hx⟩
  rw [ne_eq, List.map_eq_nil_iff]
  exact ⟨fun hiff => hiff.mp, fun hflag => ⟨hflag, hback⟩⟩

/-- The processor ends the request. -/
theorem followsProtocol_of_finish (hnil : fromComplete calls = []) (hother : outcome ≠ .other)
    (hthrown : thrown = none) :
    FollowsProtocol ((emittedBefore calls ++ endsAfter calls).map (reply (sentBefore calls)) ++
      [ending lib calls outcome]) ↔ Proper calls outcome thrown := by
  have hends : endsAfter calls = [] := by rw [endsAfter, hnil, List.filter_nil]
  have hproper : Proper calls outcome thrown ↔
      Sends (emittedBefore calls) ∧ (outcome = .success → FlagHolds calls) := by
    simp [Proper, hnil, hends, hother, hthrown]
  rw [hends, List.append_nil, followsProtocol_concat, sends_iff, hproper]
  refine and_congr_right fun hsends => ?_
  cases outcome with
  | success =>
    rw [← flag_iff hsends (sentBefore calls)]
    simp [ending, Reply.isTerminal]
  | threw what => simp [ending, Reply.isTerminal]
  | failed what => simp [ending, Reply.isTerminal]
  | other => exact absurd rfl hother

/-- The handler ends the request, or nobody. -/
theorem followsProtocol_of_calls
    (h : ¬ (fromComplete calls = [] ∧ outcome ≠ .other ∧ thrown = none)) :
    FollowsProtocol ((emittedBefore calls ++ endsAfter calls).map (reply (sentBefore calls))) ↔
      Proper calls outcome thrown := by
  have hfirst : ¬ (Sends (emittedBefore calls) ∧ fromComplete calls = [] ∧ outcome ≠ .other ∧
      thrown = none ∧ (outcome = .success → FlagHolds calls)) :=
    fun hall => h ⟨hall.2.1, hall.2.2.1, hall.2.2.2.1⟩
  have hquiet : fromComplete calls ≠ [] ∨ outcome = .other ∨ thrown ≠ none := by
    by_contra hnone
    push Not at hnone
    exact h hnone
  unfold Proper
  rw [or_iff_right hfirst]
  rcases List.eq_nil_or_concat' (endsAfter calls) with hends | ⟨ends, x, hends⟩
  · rw [hends, List.append_nil]
    rcases List.eq_nil_or_concat' (emittedBefore calls) with hbefore | ⟨values, x, hbefore⟩
    · simp [hbefore, not_followsProtocol_nil]
    · obtain ⟨hmem, hthrown⟩ : x ∈ beforeComplete calls ∧ x.thrown = none :=
        of_mem_emittedBefore (by rw [hbefore]; exact List.mem_concat_self)
      rw [hbefore, List.map_append, List.map_singleton, followsProtocol_concat, sends_iff]
      cases x with
      | send payload t => simp [reply, Reply.isTerminal]
      | complete t => cases not_isComplete_of_mem hmem
      | error payload t =>
        obtain rfl : t = none := hthrown
        simp [reply, Reply.isTerminal, hquiet]
  · obtain ⟨hthrown, hterminal⟩ : x.thrown = none ∧ x.isTerminal = true :=
      of_mem_endsAfter (by rw [hends]; exact List.mem_concat_self)
    -- What comes before the last end is ends too, so there is none.
    have hone : (∀ m ∈ (emittedBefore calls ++ ends).map (reply (sentBefore calls)),
        m.isTerminal = false) ↔ Sends (emittedBefore calls) ∧ ends = [] := by
      rw [List.map_append, List.forall_mem_append, sends_iff]
      refine and_congr_right fun _ => ⟨fun hall => List.eq_nil_iff_forall_not_mem.mpr ?_, ?_⟩
      · intro y hy
        obtain ⟨-, hend⟩ : y.thrown = none ∧ y.isTerminal = true :=
          of_mem_endsAfter (by rw [hends]; exact List.mem_append_left _ hy)
        rw [← isTerminal_reply (sentBefore calls),
          hall _ (List.mem_map_of_mem hy)] at hend
        cases hend
      · rintro rfl
        exact fun _ hm => absurd hm List.not_mem_nil
    have hsingle : ∀ y, ends ++ [x] = [y] ↔ ends = [] ∧ x = y := by
      intro y
      cases ends <;> simp
    rw [hends, ← List.append_assoc, List.map_append, List.map_singleton, followsProtocol_concat,
      hone]
    simp only [hsingle]
    cases x with
    | send payload t => cases hterminal
    | complete t =>
      obtain rfl : t = none := hthrown
      have hflag : Sends (emittedBefore calls) ∧ ends = [] →
          ((sentBefore calls = true ↔
            (emittedBefore calls ++ ends).map (reply (sentBefore calls)) ≠ []) ↔
              FlagHolds calls) := by
        rintro ⟨hsends, rfl⟩
        rw [List.append_nil]
        exact flag_iff hsends (sentBefore calls)
      constructor
      · rintro ⟨hleft, -, hright⟩
        exact .inl ⟨hleft.1, ⟨hleft.2, rfl⟩, (hflag hleft).mp (hright _ rfl)⟩
      · rintro (⟨hsends, ⟨hnil, -⟩, hright⟩ | ⟨_, -, -, hne⟩ | ⟨_, _, -, -, hnil, -⟩)
        · refine ⟨⟨hsends, hnil⟩, rfl, ?_⟩
          rintro flag hsame
          cases hsame
          exact (hflag ⟨hsends, hnil⟩).mpr hright
        · cases hne
        · exact absurd hnil (List.append_ne_nil_of_right_ne_nil _ (List.cons_ne_nil _ _))
    | error payload t =>
      obtain rfl : t = none := hthrown
      simp [reply, Reply.isTerminal]

end ContextLemmas

open ContextLemmas

/-! ## The messages of a request -/

/-- The messages of a request are values and then one end exactly when the handler is proper. -/
theorem followsProtocol_iff (lib : Libraries) (id : UInt16) (unread : List UInt8)
    (calls : List ContextCall) (outcome : Outcome) (thrown : Option String) :
    FollowsProtocol ((RequestContext.create id unread).handled lib calls outcome thrown).emitted ↔
      Proper calls outcome thrown := by
  rw [emitted_handled]
  split
  · next h => exact followsProtocol_of_finish h.1 h.2.1 h.2.2
  · next h =>
    rw [List.append_nil]
    exact followsProtocol_of_calls h

/-- A handler that sends an error and succeeds ends the request twice, and so does one that
completes it twice. One that succeeds after its only value was not sent announces a value. -/
theorem error_then_success_ends_twice :
    ¬ FollowsProtocol ((RequestContext.create 1 []).handled ⟨id, id⟩ [.error [1] none] .success
        none).emitted ∧
      ¬ FollowsProtocol ((RequestContext.create 1 []).handled ⟨id, id⟩
        [.complete none, .complete none] .success none).emitted ∧
      ¬ FollowsProtocol ((RequestContext.create 1 []).handled ⟨id, id⟩
        [.send [1] (some "Raknet failed to send the message.")] .success none).emitted := by
  refine ⟨?_, ?_, ?_⟩ <;> rw [followsProtocol_iff] <;>
    simp [Proper, FlagHolds, Sends, emittedBefore, endsAfter, beforeComplete, fromComplete,
      ContextCall.isSend, ContextCall.isComplete, ContextCall.isTerminal, ContextCall.thrown]

end Stormancer.Requests
