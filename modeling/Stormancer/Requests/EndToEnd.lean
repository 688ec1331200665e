import Mathlib.Data.List.TakeWhile
import Stormancer.Requests.Endpoint

/-!
# A system request from end to end

The bytes that `sendSystemRequest` writes arrive at the peer, its handler sends values and ends,
and the bytes of the responses arrive in order, among requests and responses of others. The two
sides may have different byte orders.

Results:
1. `result_responded`: what a response does to the result of every request.
2. `result_run`: the result is the first answer among the responses to the request.
3. `system_request_endToEnd`: from the payload to the result.
-/

namespace Stormancer.Requests

open Packets (DefaultPacketDispatcher MessageIDTypes)
open Streams (Fixed OByteStream)
open EndpointLemmas (responded)

/-! ## Definitions -/

/-- What happens at the side that has sent the request. -/
inductive Event
  | send (msgId : UInt8) (payload : Payload) (ct : Token) (sendFails : Bool)
  | reply (id : UInt16) (reply : Reply)

/-- The event is a response to the requests of the id. -/
def Event.isReplyTo (id : UInt16) : Event → Bool
  | .send .. => false
  | .reply id' _ => id' == id

def Endpoint.step (p : Platform) (d : DefaultPacketDispatcher Endpoint) (connection : UInt64)
    (e : Endpoint) : Event → Endpoint
  | .send msgId payload ct sendFails =>
    { e with processor := e.processor.sendSystemRequest true msgId payload ct sendFails }
  | .reply id reply =>
    e.receive d connection (OByteStream.written p.machine (reply.writes id))

def Endpoint.run (p : Platform) (d : DefaultPacketDispatcher Endpoint) (connection : UInt64)
    (e : Endpoint) (events : List Event) : Endpoint :=
  events.foldl (Endpoint.step p d connection) e

/-- The result that a response gives to a pending request. -/
def Reply.answer (p : Platform) : Reply → Option Result
  | .msg payload => some (.value payload)
  | .complete didSendValues => if didSendValues then none else some .empty
  | .error payload =>
    match deserializeText payload with
    | some text => some (.error (p.copied (cString text)))
    | none => some .canceled

def Event.answer (p : Platform) : Event → Option Result
  | .send .. => none
  | .reply _ r => r.answer p

/-- The bytes of a system request that is sent. -/
def Outgoing.encode (p : Platform) (o : Outgoing) : Option (List UInt8) :=
  Requests.encode p (requestWrites o.msgId o.id o.payload)

/-- An endpoint before any request. -/
def Endpoint.init : Endpoint where
  processor := .init []
  exceptions := fun _ => none
  handled := []
  outbox := []

/-- The dispatcher with nothing but the processors of `RequestProcessor`. -/
def dispatcher (p : Platform) (handlers : UInt8 → Option Handler) :
    DefaultPacketDispatcher Endpoint :=
  (registerProcessor p handlers ⟨fun _ => none, []⟩).toOption.getD ⟨fun _ => none, []⟩

/-- The text of a failure as `q` sends it and `p` reads it. -/
def failureText (p q : Platform) (outcome : Outcome) : Text :=
  p.copied (cString (ascii "An error occured on the server. " ++
    (outcome.what q.libraries).getD []))

/-- The value that a call sends. -/
def ContextCall.value : ContextCall → Option Payload
  | .send payload none => some payload
  | _ => none

/-- The result of a request whose handler sends values and then ends. -/
def expected (p q : Platform) (calls : List ContextCall) (outcome : Outcome) : Result :=
  match calls.findSome? ContextCall.value with
  | some payload => .value payload
  | none =>
    match outcome with
    | .success => .empty
    | _ => .error (failureText p q outcome)

/-- The messages of a handler that is given the payload. -/
def Handler.replies (handler : Handler) (q : Platform) (payload : Payload) : List Reply :=
  ((RequestContext.create 0 payload).handled q.libraries (handler (.ofBytes payload)).1
    (handler (.ofBytes payload)).2 none).emitted

namespace EndToEndLemmas

open CorrelationLemmas EndpointLemmas ContextLemmas

variable {p q : Platform} {e : Endpoint} {d : DefaultPacketDispatcher Endpoint}
  {handlers : UInt8 → Option Handler}

/-! ## One response -/

/-- The step of the processor that a response is. -/
def action (id : UInt16) : Reply → RequestProcessor.Action
  | .msg payload => .responseMsg id payload
  | .complete didSendValues => .responseComplete id didSendValues
  | .error payload => .responseError id (deserializeText payload).isSome

theorem fail_processor (p : Platform) (e : Endpoint) (id : UInt16) (unread : List UInt8) :
    (e.fail p id unread).processor =
      e.processor.responseError id (deserializeText unread).isSome := by
  unfold Endpoint.fail
  split
  · next hnone =>
    unfold RequestProcessor.responseError RequestProcessor.respond RequestProcessor.freeRequestSlot
    rw [hnone]
  · split
    · next hnone => rw [hnone]; rfl
    · next hsome => rw [hsome]; rfl

theorem responded_processor (p : Platform) (e : Endpoint) (id : UInt16) (reply : Reply) :
    e.processor.step (action id reply) = some (responded p e id reply).processor := by
  cases reply with
  | msg payload => rfl
  | complete didSendValues => rfl
  | error payload => exact congrArg some (fail_processor p e id payload).symm

theorem setException_exceptions {r : Ref} {x : SystemRequest}
    (hr : e.processor.heap[r]? = some x) (what : Text) :
    (e.setException r what).exceptions =
      if x.complete = false ∧ x.task = .pending then Function.update e.exceptions r (some what)
      else e.exceptions := by
  unfold Endpoint.setException
  rw [hr]
  dsimp only
  split <;> rfl

/-- A task that has ended, or that the response is not for, keeps its text. -/
theorem responded_exceptions (h : Correlated e.processor) (p : Platform) {id : UInt16}
    {reply : Reply} {r : Ref} {x : SystemRequest} (hr : e.processor.heap[r]? = some x)
    (hother : x.task ≠ .pending ∨ x.id ≠ id) :
    (responded p e id reply).exceptions r = e.exceptions r := by
  cases reply with
  | msg payload => rfl
  | complete didSendValues => rfl
  | error payload =>
    show (e.fail p id payload).exceptions r = e.exceptions r
    unfold Endpoint.fail
    split
    · rfl
    · next r' hslot =>
      split
      · rfl
      · obtain ⟨x', hr', hid⟩ := h.own id r' hslot
        dsimp only
        rw [setException_exceptions hr']
        split
        · next htakes =>
          refine Function.update_of_ne ?_ _ _
          rintro rfl
          rw [hr] at hr'
          cases hr'
          rcases hother with hended | hne
          · exact hended htakes.2
          · exact hne hid
        · rfl

/-- An error whose text is decoded gives it to the pending request of its id. -/
theorem fail_exceptions (h : Correlated e.processor) (p : Platform) {r : Ref} {x : SystemRequest}
    (hr : e.processor.heap[r]? = some x) (hpending : x.task = .pending) {unread : List UInt8}
    {msg : Text} (hmsg : deserializeText unread = some msg) :
    (e.fail p x.id unread).exceptions r = some (p.copied (cString msg)) := by
  obtain ⟨hslot, hopen⟩ := h.held r x hr hpending
  unfold Endpoint.fail
  rw [hslot]
  dsimp only
  rw [hmsg]
  dsimp only
  rw [setException_exceptions hr, if_pos ⟨hopen, hpending⟩]
  exact Function.update_self _ _ _

theorem ofTask_pending {what : Option Text} {task : TaskState} :
    Result.ofTask what task = .pending ↔ task = .pending := by
  cases task with
  | pending => exact ⟨fun _ => rfl, fun _ => rfl⟩
  | value packet => cases packet <;> exact ⟨nofun, nofun⟩
  | exception => cases what <;> exact ⟨nofun, nofun⟩
  | canceled => exact ⟨nofun, nofun⟩

/-- A response answers the pending request of its id, and leaves the results of the others. -/
theorem result_responded (h : Correlated e.processor) (p : Platform) (id : UInt16) (reply : Reply)
    {r : Ref} {x : SystemRequest}
    (hr : e.processor.heap[r]? = some x) :
    ∃ x', (responded p e id reply).processor.heap[r]? = some x' ∧ x'.id = x.id ∧
      Result.ofTask ((responded p e id reply).exceptions r) x'.task =
        if Result.ofTask (e.exceptions r) x.task = .pending ∧ id = x.id
        then (reply.answer p).getD .pending
        else Result.ofTask (e.exceptions r) x.task := by
  obtain ⟨x', hr', hid, htask⟩ := answer_step (a := action id reply) h
    (by cases reply <;> trivial) (responded_processor p e id reply) hr
  refine ⟨x', hr', hid, ?_⟩
  rw [htask]
  by_cases hpending : x.task = .pending
  · rw [if_pos hpending]
    by_cases heq : id = x.id
    · -- The response is for this request.
      subst heq
      rw [if_pos ⟨ofTask_pending.mpr hpending, rfl⟩]
      cases reply with
      | msg payload => simp [action, answer, Reply.answer, Result.ofTask]
      | complete didSendValues =>
        cases didSendValues <;> simp [action, answer, Reply.answer, Result.ofTask]
      | error payload =>
        cases hmsg : deserializeText payload with
        | none => simp [action, answer, Reply.answer, Result.ofTask, hmsg]
        | some msg =>
          have hwhat := fail_exceptions h p hr hpending hmsg
          simp [action, answer, Reply.answer, Result.ofTask, responded, hmsg, hwhat]
    · rw [if_neg fun hboth => heq hboth.2]
      have hnone : answer x.id (action id reply) = none := by
        cases reply <;> simp [action, answer, heq]
      rw [hnone, hpending]
      rfl
  · rw [if_neg hpending, if_neg fun hboth => hpending (ofTask_pending.mp hboth.1),
      responded_exceptions h p hr (.inl hpending)]

/-! ## All events -/

/-- What an event does to the result of every request. -/
theorem result_step (hd : Registered p handlers d) (connection : UInt64)
    (h : Correlated e.processor) (event : Event) {r : Ref} {x : SystemRequest}
    (hr : e.processor.heap[r]? = some x) :
    Correlated (e.step p d connection event).processor ∧
      ∃ x', (e.step p d connection event).processor.heap[r]? = some x' ∧ x'.id = x.id ∧
        Result.ofTask ((e.step p d connection event).exceptions r) x'.task =
          if Result.ofTask (e.exceptions r) x.task = .pending ∧ event.isReplyTo x.id = true
          then (event.answer p).getD .pending
          else Result.ofTask (e.exceptions r) x.task := by
  cases event with
  | send msgId payload ct sendFails =>
    have hsend : e.processor.step (.sendSystemRequest true msgId payload ct sendFails) =
        some (e.processor.sendSystemRequest true msgId payload ct sendFails) := rfl
    refine ⟨correlated_step h (by exact trivial) hsend, x,
      get_send hr true msgId payload ct sendFails, rfl, ?_⟩
    rw [if_neg fun hboth => nomatch hboth.2]
    rfl
  | reply id reply =>
    have hstep : e.step p d connection (.reply id reply) = responded p e id reply :=
      receive_reply hd id reply
    rw [hstep]
    refine ⟨correlated_step h (by cases reply <;> trivial) (responded_processor p e id reply), ?_⟩
    obtain ⟨x', hr', hid, hresult⟩ := result_responded h p id reply hr
    refine ⟨x', hr', hid, hresult.trans ?_⟩
    simp [Event.isReplyTo, Event.answer]

theorem result_ne_pending {event : Event} {result : Result} (h : event.answer p = some result) :
    result ≠ .pending := by
  cases event with
  | send msgId payload ct sendFails => cases h
  | reply id reply =>
    unfold Event.answer Reply.answer at h
    cases reply with
    | msg payload =>
      cases h
      nofun
    | complete didSendValues =>
      cases didSendValues
      · cases h
        nofun
      · cases h
    | error payload =>
      dsimp only at h
      split at h
      · cases h
        nofun
      · cases h
        nofun

/-- The result of a pending request is the first answer among the responses of its id. -/
theorem result_run (hd : Registered p handlers d) (connection : UInt64)
    (h : Correlated e.processor) (events : List Event) {r : Ref} {x : SystemRequest}
    (hr : e.processor.heap[r]? = some x) :
    (e.run p d connection events).result r =
      some (if Result.ofTask (e.exceptions r) x.task = .pending then
          ((events.filter (Event.isReplyTo x.id)).findSome? (Event.answer p)).getD .pending
        else Result.ofTask (e.exceptions r) x.task) := by
  induction events generalizing e x with
  | nil =>
    show e.result r = _
    unfold Endpoint.result
    rw [hr, Option.map_some]
    split
    · next hpending => rw [hpending]; rfl
    · rfl
  | cons event events ih =>
    obtain ⟨h', x', hr', hid, hresult⟩ := result_step hd connection h event hr
    have hrest := ih h' hr'
    rw [Endpoint.run, List.foldl_cons]
    refine hrest.trans ?_
    rw [hresult, hid]
    generalize Result.ofTask (e.exceptions r) x.task = now
    cases hreply : event.isReplyTo x.id with
    | false => simp [hreply]
    | true =>
      rw [List.filter_cons_of_pos hreply, List.findSome?_cons]
      by_cases hpending : now = .pending
      · subst hpending
        cases hanswer : event.answer p with
        | none => simp
        | some result =>
          have hne := result_ne_pending hanswer
          simp [hne]
      · simp [hpending]

/-! ## The replies of a handler -/

/-- The text of an error is decoded. -/
theorem deserializeText_packStr {text : Text} (h : text.length < 0x100000000) :
    deserializeText (Msgpack.packStr text) = some text := by
  have hunpack := Msgpack.unpack_of_encodes (Msgpack.encodes_packStr h) []
  rw [List.append_nil] at hunpack
  unfold deserializeText
  rw [hunpack]
  rfl

/-- The messages of a handler that only sends. -/
theorem emitted_of_sends (lib : Libraries) (payload : Payload) {calls : List ContextCall}
    (hsends : Sends calls) {outcome : Outcome} (hother : outcome ≠ .other) :
    ((RequestContext.create 0 payload).handled lib calls outcome none).emitted =
      (calls.filter fun x => x.thrown = none).map (reply (sentBefore calls)) ++
        [ending lib calls outcome] := by
  have hopen : ∀ x ∈ calls, (!x.isComplete) = true := by
    intro x hx
    have hsend := hsends x hx
    cases x with
    | send payload thrown => rfl
    | complete thrown => cases hsend
    | error payload thrown => cases hsend
  have hfrom : fromComplete calls = [] := List.dropWhile_eq_nil_iff.mpr hopen
  have hbefore : beforeComplete calls = calls := List.takeWhile_eq_self_iff.mpr hopen
  have hends : endsAfter calls = [] := by rw [endsAfter, hfrom, List.filter_nil]
  rw [emitted_handled, hends, List.append_nil, if_pos ⟨hfrom, hother, rfl⟩, emittedBefore, hbefore]

/-- The first value among the messages of the calls. -/
theorem findSome_sends {calls : List ContextCall} (hsends : Sends calls) (flag : Bool) :
    ((calls.filter fun x => x.thrown = none).map (reply flag)).findSome? (Reply.answer p) =
      (calls.findSome? ContextCall.value).map Result.value := by
  induction calls with
  | nil => rfl
  | cons x calls ih =>
    have hrest := ih fun y hy => hsends y (List.mem_cons_of_mem _ hy)
    have hsend := hsends x List.mem_cons_self
    cases x with
    | send payload thrown =>
      cases thrown with
      | none => rfl
      | some what => exact hrest
    | complete thrown => cases hsend
    | error payload thrown => cases hsend

/-- A handler that announces a value has sent one. -/
theorem flag_of_findSome {calls : List ContextCall} (hsends : Sends calls)
    (hflag : FlagHolds calls) (hnone : calls.findSome? ContextCall.value = none) :
    sentBefore calls = false := by
  by_contra hsent
  obtain ⟨x, hx⟩ := List.exists_mem_of_ne_nil _ (hflag (eq_true_of_ne_false hsent))
  obtain ⟨hbefore, hthrown⟩ := of_mem_emittedBefore hx
  have hmem : x ∈ calls := (List.takeWhile_sublist _).subset hbefore
  have hvalue := List.findSome?_eq_none_iff.mp hnone x hmem
  have hsend := hsends x hmem
  cases x with
  | send payload thrown =>
    obtain rfl : thrown = none := hthrown
    cases hvalue
  | complete thrown => cases hsend
  | error payload thrown => cases hsend

/-- The first answer among the messages of a handler that only sends. -/
theorem findSome_replies {handler : Handler} {payload : Payload}
    (hsends : Sends (handler (.ofBytes payload)).1)
    (hother : (handler (.ofBytes payload)).2 ≠ .other)
    (hflag : (handler (.ofBytes payload)).2 = .success → FlagHolds (handler (.ofBytes payload)).1)
    (hsmall : ∀ reply ∈ handler.replies q payload, reply.body.length + 3 < 0x80000000) :
    ((handler.replies q payload).findSome? (Reply.answer p)).getD .pending =
      expected p q (handler (.ofBytes payload)).1 (handler (.ofBytes payload)).2 := by
  unfold Handler.replies at *
  rw [emitted_of_sends q.libraries payload hsends hother] at hsmall ⊢
  generalize (handler (.ofBytes payload)).2 = outcome at *
  generalize (handler (.ofBytes payload)).1 = calls at *
  rw [List.findSome?_append, findSome_sends hsends]
  unfold expected
  cases hvalue : calls.findSome? ContextCall.value with
  | some value => rfl
  | none =>
    have hlength := hsmall _ (List.mem_append_right _ (List.mem_singleton_self _))
    rw [Option.map_none, Option.none_or, List.findSome?_singleton]
    by_cases hsuccess : outcome = .success
    · subst hsuccess
      unfold ending
      rw [flag_of_findSome hsends (hflag rfl) hvalue]
      rfl
    · have hending : ending q.libraries calls outcome = .error (Msgpack.packStr
          (ascii "An error occured on the server. " ++ (outcome.what q.libraries).getD [])) := by
        cases outcome with
        | success => exact absurd rfl hsuccess
        | threw what => rfl
        | failed what => rfl
        | other => exact absurd rfl hother
      rw [hending] at hlength ⊢
      generalize htext : ascii "An error occured on the server. " ++
        (outcome.what q.libraries).getD [] = text at *
      have hdecoded : deserializeText (Msgpack.packStr text) = some text := by
        refine deserializeText_packStr ?_
        have hpacked : (Msgpack.packStr text).length + 3 < 0x80000000 := hlength
        have hle : text.length ≤ (Msgpack.packStr text).length := by simp [Msgpack.packStr]
        omega
      rw [Reply.answer, hdecoded, ← htext]
      cases outcome with
      | success => exact absurd rfl hsuccess
      | _ => rfl

/-- The messages of a handler are given to the link as their bytes. -/
theorem encode_replies {replies : List Reply} {requestId id : UInt16}
    (hid : (Fixed.uint16 requestId).memory q.machine.order =
      (Fixed.uint16 id).memory p.machine.order)
    (hsmall : ∀ reply ∈ replies, reply.body.length + 3 < 0x80000000) :
    (replies.filterMap fun reply => encode q (reply.writes requestId)) =
      replies.map fun reply => OByteStream.written p.machine (reply.writes id) := by
  rw [← List.filterMap_eq_map]
  refine List.filterMap_congr fun reply hreply => ?_
  have hsame : OByteStream.written q.machine (reply.writes requestId) =
      OByteStream.written p.machine (reply.writes id) := by
    rw [written_reply, written_reply, hid]
  have hlength : (OByteStream.written q.machine (reply.writes requestId)).length < 0x80000000 := by
    have hbody := hsmall reply hreply
    rw [written_reply, List.length_cons, List.length_append, Fixed.length_memory]
    dsimp only [Fixed.type, Streams.FixedType.size]
    omega
  rw [encode, OByteStream.bytes_concatenate q.machine _ hlength, hsame]
  rfl

/-! ## The request -/

/-- What is sent with the id that is reserved. -/
theorem sent_send {s : RequestProcessor} {id : UInt16} (h : s.nextId = some id) (msgId : UInt8)
    (payload : Payload) (ct : Token) :
    (s.sendSystemRequest true msgId payload ct false).sent =
      s.sent ++ [⟨msgId, id, payload, msgId == idSetMetadata⟩] := by
  have hregister : ∀ s : RequestProcessor, (s.registerCallback ct id).sent = s.sent := by
    intro s
    unfold RequestProcessor.registerCallback RequestProcessor.freeRequestSlot
    cases ct with
    | none => rfl
    | some t =>
      dsimp only
      split
      · split <;> rfl
      · rfl
  unfold RequestProcessor.sendSystemRequest
  simp only [h, Bool.not_true, Bool.false_eq_true, if_false]
  split
  · exact congrArg (· ++ _) (hregister _)
  · exact congrArg (· ++ _) (hregister _)

theorem encode_request {msgId : UInt8} {id : UInt16} {payload : Payload}
    (hsmall : payload.length + 4 < 0x80000000) :
    encode p (requestWrites msgId id payload) =
      some (OByteStream.written p.machine (requestWrites msgId id payload)) := by
  refine OByteStream.bytes_concatenate p.machine _ ?_
  rw [written_request, List.length_cons, List.length_cons, List.length_append,
    Fixed.length_memory]
  dsimp only [Fixed.type, Streams.FixedType.size]
  omega

theorem registered_dispatcher (p : Platform) (handlers : UInt8 → Option Handler) :
    Registered p handlers (dispatcher p handlers) :=
  ⟨⟨⟨fun _ => none, []⟩, rfl⟩, fun _ hmem => nomatch hmem⟩

end EndToEndLemmas

open CorrelationLemmas EndpointLemmas EndToEndLemmas

/-- A request to a handler that only sends, from the bytes that are sent to the result: the handler
is given the payload, and the caller's task ends with the first value that `send` did not throw
for, with the error of the handler, or empty. Other requests and responses may come in between. -/
theorem system_request_endToEnd {p q : Platform} {handlers ownHandlers : UInt8 → Option Handler}
    {d d' : DefaultPacketDispatcher Endpoint} (hd : Registered q handlers d)
    (hd' : Registered p ownHandlers d') (connection connection' : UInt64) {msgId : UInt8}
    {handler : Handler} (hhandler : handlers msgId = some handler) {payload : Payload}
    (hsends : Sends (handler (.ofBytes payload)).1)
    (hother : (handler (.ofBytes payload)).2 ≠ .other)
    (hflag : (handler (.ofBytes payload)).2 = .success → FlagHolds (handler (.ofBytes payload)).1)
    (hrequest : payload.length + 4 < 0x80000000)
    (hreplies : ∀ reply ∈ handler.replies q payload, reply.body.length + 3 < 0x80000000)
    {canceledTokens : List Nat} {caller : Endpoint}
    (hcaller : Lts.Reachable RequestProcessor.step NoCancellation
      (RequestProcessor.init canceledTokens) caller.processor)
    {ct : Token} (hct : caller.processor.isCanceled ct = false) {id : UInt16}
    (hid : caller.processor.nextId = some id) (peer : Endpoint) :
    ∃ sent request context,
      (caller.step p d' connection' (.send msgId payload ct false)).processor.sent =
        caller.processor.sent ++ [sent] ∧
      sent.encode p = some request ∧
      (peer.receive d connection request).handled = peer.handled ++ [(msgId, context)] ∧
      context.inputStream = .ofBytes payload ∧
      context.emitted = handler.replies q payload ∧
      (peer.receive d connection request).outbox = peer.outbox ++ context.emitted.map
        (fun reply => OByteStream.written p.machine (reply.writes id)) ∧
      ∀ events : List Event,
        events.filter (Event.isReplyTo id) = context.emitted.map (Event.reply id) →
        ((caller.step p d' connection' (.send msgId payload ct false)).run p d' connection'
          events).result caller.processor.heap.length =
            some (expected p q (handler (.ofBytes payload)).1 (handler (.ofBytes payload)).2) := by
  have hcorrelated : Correlated caller.processor :=
    hcaller.invariant (correlated_init canceledTokens) fun _ _ _ h hg hs => correlated_step h hg hs
  obtain ⟨requestId, hsame, hreceive⟩ :=
    receive_request hd connection hhandler p id payload peer
  have hcontext := handled_frame q.libraries (.create 0 payload) requestId (.ofBytes payload)
    (handler (.ofBytes payload)).1 (handler (.ofBytes payload)).2
  have hstart : ({ RequestContext.create 0 payload with
      requestId := requestId, inputStream := .ofBytes payload } : RequestContext) =
        .create requestId payload := rfl
  rw [hstart] at hcontext
  refine ⟨_, _, _, sent_send hid msgId payload ct, encode_request hrequest,
    congrArg Endpoint.handled hreceive, ?_, ?_, ?_, fun events hevents => ?_⟩
  · rw [hcontext]
  · rw [hcontext]
    rfl
  · rw [hreceive, hcontext]
    exact congrArg (peer.outbox ++ ·) (encode_replies hsame hreplies)
  · obtain ⟨x, hxid, hxtask, -, hheap, -⟩ := send_spec hid msgId payload ct false
    have hx : (caller.processor.sendSystemRequest true msgId payload ct
        false).heap[caller.processor.heap.length]? = some x := by
      rw [hheap]
      simp
    have hsent : caller.processor.step (.sendSystemRequest true msgId payload ct false) =
        some (caller.processor.sendSystemRequest true msgId payload ct false) := rfl
    have hpending : x.task = .pending := by
      rw [hxtask, hct]
      rfl
    have hresult := result_run (e := caller.step p d' connection' (.send msgId payload ct false))
      hd' connection' (correlated_step hcorrelated (by exact trivial) hsent) events hx
    rw [hxid, hevents, if_pos (ofTask_pending.mpr hpending), List.findSome?_map, hcontext] at hresult
    rw [hresult]
    exact congrArg some (findSome_replies hsends hother hflag hreplies)

/-- A copy of an exception has the text of the exception. -/
def keepsText : Platform := ⟨⟨.little, 8⟩, id, 0⟩

/-- A copy of an exception as a `std::exception` has the text of every `std::exception`. -/
def losesText : Platform := ⟨⟨.big, 4⟩, fun _ => ascii "std::exception", 0⟩

/-- Sends the parameters back, then another value. -/
def echo : Handler := fun stream => ([.send stream.unread none, .send [9] none], .success)

theorem system_request_across_byte_orders :
    ∃ (sent : Outgoing) (request : List UInt8), sent.encode keepsText = some request ∧
      (Endpoint.init.receive (dispatcher losesText fun _ => some echo) 0 request).outbox =
        [[137, 1, 0, 0, 134, 255], [137, 1, 0, 9], [138, 1, 0, 1]] ∧
      ((Endpoint.init.step keepsText (dispatcher keepsText fun _ => none) 0
        (.send 7 [0, 134, 255] none false)).run keepsText (dispatcher keepsText fun _ => none) 0
        [.reply 2 (.complete false), .reply 1 (.msg [0, 134, 255]), .send 7 [] none false,
          .reply 1 (.msg [9]), .reply 1 (.complete true)]).result 0 =
        some (.value [0, 134, 255]) := by
  have hreplies : echo.replies losesText [0, 134, 255] =
      [.msg [0, 134, 255], .msg [9], .complete true] := rfl
  have hsends : Sends (echo (.ofBytes [0, 134, 255])).1 := by
    unfold Sends
    decide
  have hcaller : Lts.Reachable RequestProcessor.step NoCancellation (RequestProcessor.init [])
      Endpoint.init.processor := Lts.Reachable.start
  have hct : Endpoint.init.processor.isCanceled none = false := rfl
  have hid : Endpoint.init.processor.nextId = some 1 := by decide +kernel
  obtain ⟨sent, request, context, -, hrequest, -, -, hemitted, houtbox, hresult⟩ :=
    system_request_endToEnd (registered_dispatcher losesText fun _ => some echo)
      (registered_dispatcher keepsText fun _ => none) 0 0
      (show (fun _ => some echo) (7 : UInt8) = some echo from rfl) hsends nofun
      (fun _ _ => by decide) (by decide)
      (by rw [hreplies]; decide +kernel) hcaller hct hid .init
  rw [hemitted, hreplies] at houtbox hresult
  exact ⟨sent, request, hrequest, houtbox, hresult _ rfl⟩

/-- Fails without sending. -/
def failing : Handler := fun _ => ([], .threw (ascii "x"))

/-- A request to a handler that fails, and the answer: both sides run on `p`. -/
def failingRun (p : Platform) : Option Result :=
  let d := dispatcher p fun _ => some failing
  let caller := Endpoint.init.step p d 0 (.send 7 [] none false)
  let peer := Endpoint.init.receive d 0 ((encode p (requestWrites 7 1 [])).getD [])
  (peer.outbox.foldl (Endpoint.receive d 0) caller).result 0

/-- The error of the caller's task does not have the text of the handler. -/
theorem failure_text_is_not_the_handlers :
    failingRun keepsText = some (.error (ascii "An error occured on the server. x")) ∧
      failingRun losesText = some (.error (ascii "std::exception")) ∧
      failingRun keepsText ≠ some (.error (ascii "x")) ∧
      failingRun losesText ≠ some (.error (ascii "x")) := by
  decide +kernel

end Stormancer.Requests
