import Stormancer.Lib.MsgpackCodec
import Stormancer.Requests.Context
import Stormancer.Requests.Correlation
import Stormancer.Streams.IByteStream

/-!
# The messages of the requests

The bytes of system requests and of their responses, as the two sides write them, and the
processors of `RequestProcessor` on the streams that they arrive in. An endpoint has both sides: it
answers the requests of its peer, and has requests of its own.

A processor that throws leaves the packet to nobody else, as one that has processed it does. So
an error text that cannot be decoded is not an error of the dispatch here. The connection takes
what the processors hand to it; the calls of a handler may still throw.

Results:
1. `registerProcessor_spec`: the processors that are registered.
2. `receive_request`: what an endpoint does with the bytes of a request.
3. `receive_reply`: what it does with the bytes of a response.
-/

namespace Stormancer.Requests

open Packets (DefaultPacketDispatcher HandlerFunction MessageIDTypes)
open Streams (Fixed OByteStream)

/-! ## Data -/

/-- What an endpoint runs on. -/
structure Platform where
  machine : Streams.Machine
  /-- `what()` of a copy of an exception as a `std::exception`, from its own `what()`. -/
  copied : Text → Text
  /-- What is in a variable before it is read. -/
  uninitialized : UInt16

def Platform.libraries (p : Platform) : Libraries := ⟨p.copied, Msgpack.packStr⟩

/-- What a handler of system requests does with the parameters. -/
abbrev Handler := Packets.IByteStream → List ContextCall × Outcome

structure Endpoint where
  processor : RequestProcessor
  /-- `what()` of the exceptions that responses gave to the tasks of requests. -/
  exceptions : Ref → Option Text
  /-- The requests of the peer: their message ids, and their contexts at the end. -/
  handled : List (UInt8 × RequestContext)
  /-- What was sent to the peer in answer. -/
  outbox : List (List UInt8)

/-- What a task ended with. `notSent` is the exception of the send. -/
inductive Result
  | pending
  | value (payload : Payload)
  | empty
  | error (what : Text)
  | notSent
  | canceled
deriving DecidableEq

/-- What a task ended with, from the text of the exception that a response gave to it. -/
def Result.ofTask (what : Option Text) : TaskState → Result
  | .pending => .pending
  | .value (some payload) => .value payload
  | .value none => .empty
  | .exception =>
    match what with
    | some what => .error what
    | none => .notSent
  | .canceled => .canceled

/-- The task of the request `r`. -/
def Endpoint.result (e : Endpoint) (r : Ref) : Option Result :=
  e.processor.heap[r]?.map fun q => .ofTask (e.exceptions r) q.task

/-! ## Messages -/

def Reply.messageId : Reply → MessageIDTypes
  | .msg _ => .idRequestResponseMsg
  | .complete _ => .idRequestResponseComplete
  | .error _ => .idRequestResponseError

/-- What follows the id of the request. -/
def Reply.body : Reply → List UInt8
  | .msg payload => payload
  | .complete didSendValues => [if didSendValues then 1 else 0]
  | .error payload => payload

/-- What `RequestContext` writes. -/
def Reply.writes (requestId : UInt16) (reply : Reply) : List OByteStream.Write :=
  [.value (.fixed (.uint8 reply.messageId.toByte)), .value (.fixed (.uint16 requestId)),
    .block reply.body]

/-- What `sendSystemRequest` writes. -/
def requestWrites (msgId : UInt8) (id : UInt16) (payload : Payload) : List OByteStream.Write :=
  [.value (.fixed (.uint8 MessageIDTypes.idSystemRequest.toByte)), .value (.fixed (.uint8 msgId)),
    .value (.fixed (.uint16 id)), .block payload]

/-- The bytes of what is written, as the stream gives them. -/
def encode (p : Platform) (writes : List OByteStream.Write) : Option (List UInt8) :=
  (OByteStream.create.run p.machine writes).bytes

/-! ## Processors -/

/-- `Serializer::deserializeOne<std::string>`, on what is left of a stream. It throws when this is
no object, or one that is no string. -/
def deserializeText (unread : List UInt8) : Option Text :=
  match Msgpack.unpack unread with
  | .error _ => none
  | .ok (o, _) => (Msgpack.stringCodec.convert [] o).toOption

/-- `msg.c_str()`. -/
def cString (msg : Text) : Text := msg.takeWhile (· ≠ 0)

/-- A context has come to its end. A message whose bytes the stream does not give is not sent. -/
def Endpoint.answer (p : Platform) (e : Endpoint) (msgId : UInt8) (context : RequestContext) :
    Endpoint :=
  { e with
    handled := e.handled ++ [(msgId, context)]
    outbox := e.outbox ++
      context.emitted.filterMap fun reply => encode p (reply.writes context.requestId) }

/-- The exception that a response gives to the task of the request `r`. -/
def Endpoint.setException (e : Endpoint) (r : Ref) (what : Text) : Endpoint :=
  match e.processor.heap[r]? with
  | none => e
  | some q =>
    if q.complete = false ∧ q.task = .pending then
      { e with exceptions := Function.update e.exceptions r (some what) }
    else e

/-- `ID_REQUEST_RESPONSE_ERROR`, once the id has been read. -/
def Endpoint.fail (p : Platform) (e : Endpoint) (id : UInt16) (unread : List UInt8) : Endpoint :=
  match e.processor.pendingRequests.lookup id with
  | none => e
  | some r =>
    match deserializeText unread with
    | none => { e with processor := e.processor.responseError id false }
    | some msg =>
      -- `trySetException` takes the `runtime_error` as a `std::exception`, and copies it.
      { e.setException r (p.copied (cString msg)) with
        processor := e.processor.responseError id true }

def systemRequest (p : Platform) (handlers : UInt8 → Option Handler) : HandlerFunction Endpoint :=
  fun packet e =>
    let (sysRequestId, stream) := packet.stream.readByte p.uninitialized.toUInt8
    let (requestId, stream) := stream.readUInt16 p.machine.order p.uninitialized
    let context := RequestContext.create requestId stream.unread
    let context :=
      match handlers sysRequestId with
      | none =>
        (context.error (Msgpack.packStr (ascii "No system request handler found.")) none).1
      | some handler =>
        context.handled p.libraries (handler context.inputStream).1
          (handler context.inputStream).2 none
    .ok (true, { packet with stream := stream }, e.answer p sysRequestId context)

def responseMsg (p : Platform) : HandlerFunction Endpoint := fun packet e =>
  let (id, stream) := packet.stream.readUInt16 p.machine.order p.uninitialized
  .ok (true, { packet with stream := stream },
    { e with processor := e.processor.responseMsg id stream.unread })

def responseComplete (p : Platform) : HandlerFunction Endpoint := fun packet e =>
  let (id, stream) := packet.stream.readUInt16 p.machine.order p.uninitialized
  let (hasValuesData, stream) := stream.readByte p.uninitialized.toUInt8
  .ok (true, { packet with stream := stream },
    { e with processor := e.processor.responseComplete id (hasValuesData != 0) })

def responseError (p : Platform) : HandlerFunction Endpoint := fun packet e =>
  let (id, stream) := packet.stream.readUInt16 p.machine.order p.uninitialized
  .ok (true, { packet with stream := stream }, e.fail p id stream.unread)

def registerProcessor (p : Platform) (handlers : UInt8 → Option Handler)
    (d : DefaultPacketDispatcher Endpoint) : Except String (DefaultPacketDispatcher Endpoint) := do
  let d ← d.addProcessor MessageIDTypes.idSystemRequest.toByte (systemRequest p handlers)
  let d ← d.addProcessor MessageIDTypes.idRequestResponseMsg.toByte (responseMsg p)
  let d ← d.addProcessor MessageIDTypes.idRequestResponseComplete.toByte (responseComplete p)
  d.addProcessor MessageIDTypes.idRequestResponseError.toByte (responseError p)

/-- A packet arrives from the connection. What a processor throws is logged. -/
def Endpoint.receive (d : DefaultPacketDispatcher Endpoint) (connection : UInt64) (e : Endpoint)
    (bytes : List UInt8) : Endpoint :=
  match d.dispatchImpl ⟨connection, .ofBytes bytes⟩ e with
  | .ok (_, s) => s.world
  | .error _ => e

/-- The processors of `RequestProcessor` are registered, and the catch-all processors decline the
ids below those of the scenes, as `SceneDispatcher` does. -/
structure Registered (p : Platform) (handlers : UInt8 → Option Handler)
    (d : DefaultPacketDispatcher Endpoint) : Prop where
  processors : ∃ d₀, registerProcessor p handlers d₀ = .ok d
  declines : ∀ processor ∈ d.defaultProcessors, ∀ msgType < MessageIDTypes.idScenes.toByte,
    ∀ packet e, processor msgType packet e = .ok (false, packet, e)

namespace EndpointLemmas

variable {p : Platform} {handlers : UInt8 → Option Handler}
  {d : DefaultPacketDispatcher Endpoint} {e : Endpoint} {connection : UInt64}

/-! ## Registration -/

theorem addProcessor_ok {d d' : DefaultPacketDispatcher Endpoint} {msgId : UInt8}
    {handler : HandlerFunction Endpoint} (h : d.addProcessor msgId handler = .ok d') :
    d' = { d with handlers := Function.update d.handlers msgId (some handler) } := by
  unfold DefaultPacketDispatcher.addProcessor at h
  split at h
  · cases h
  · cases h
    rfl

theorem bind_ok {α β : Type} {x : Except String α} {f : α → Except String β} {y : β}
    (h : x.bind f = .ok y) : ∃ a, x = .ok a ∧ f a = .ok y := by
  cases x with
  | error text => cases h
  | ok a => exact ⟨a, rfl, h⟩

/-- The processors of the four ids. -/
theorem registerProcessor_spec {d₀ : DefaultPacketDispatcher Endpoint}
    (h : registerProcessor p handlers d₀ = .ok d) :
    d.handlers MessageIDTypes.idSystemRequest.toByte = some (systemRequest p handlers) ∧
      d.handlers MessageIDTypes.idRequestResponseMsg.toByte = some (responseMsg p) ∧
      d.handlers MessageIDTypes.idRequestResponseComplete.toByte = some (responseComplete p) ∧
      d.handlers MessageIDTypes.idRequestResponseError.toByte = some (responseError p) := by
  obtain ⟨d₁, h₁, h⟩ := bind_ok h
  obtain ⟨d₂, h₂, h⟩ := bind_ok h
  obtain ⟨d₃, h₃, h⟩ := bind_ok h
  rw [addProcessor_ok h, addProcessor_ok h₃, addProcessor_ok h₂, addProcessor_ok h₁]
  simp [MessageIDTypes.toByte]

/-! ## Dispatch -/

theorem runProcessors_of_declines {processors : List (Packets.ProcessorFunction Endpoint)}
    {processed : Bool} {s : Packets.Dispatch Endpoint}
    (h : ∀ processor ∈ processors, ∀ packet e,
      processor s.msgType packet e = .ok (false, packet, e)) :
    DefaultPacketDispatcher.runProcessors processors processed s = .ok (processed, s) := by
  induction processors with
  | nil => rfl
  | cons processor rest ih =>
    rw [DefaultPacketDispatcher.runProcessors, h processor List.mem_cons_self]
    exact ih fun processor' hmem => h processor' (List.mem_cons_of_mem _ hmem)

/-- A packet that the processor of its first byte takes. -/
theorem receive_of_handler {msgType : UInt8} {handler : HandlerFunction Endpoint}
    {e' : Endpoint} {body : List UInt8}
    (hhandler : d.handlers msgType = some handler)
    (hdeclines : ∀ processor ∈ d.defaultProcessors, ∀ packet e,
      processor msgType packet e = .ok (false, packet, e))
    (hok : ∃ packet, handler ⟨connection, ⟨[msgType], body, true⟩⟩ e = .ok (true, packet, e')) :
    e.receive d connection (msgType :: body) = e' := by
  obtain ⟨packet, hok⟩ := hok
  have hloop : d.dispatchLoop DefaultPacketDispatcher.maxLayerCount
      ⟨0, ⟨connection, .ofBytes (msgType :: body)⟩, e⟩ = .ok (true, ⟨msgType, packet, e'⟩) := by
    unfold DefaultPacketDispatcher.maxLayerCount DefaultPacketDispatcher.dispatchLoop
    have hread : DefaultPacketDispatcher.readType
        (⟨0, ⟨connection, .ofBytes (msgType :: body)⟩, e⟩ : Packets.Dispatch Endpoint) =
          ⟨msgType, ⟨connection, ⟨[msgType], body, true⟩⟩, e⟩ := rfl
    rw [hread]
    dsimp only
    rw [hhandler]
    dsimp only
    rw [hok]
  unfold Endpoint.receive DefaultPacketDispatcher.dispatchImpl
  rw [hloop]
  dsimp only
  rw [runProcessors_of_declines hdeclines]

/-! ## Bytes -/

theorem written_reply (p : Platform) (id : UInt16) (reply : Reply) :
    OByteStream.written p.machine (reply.writes id) =
      reply.messageId.toByte :: ((Fixed.uint16 id).memory p.machine.order ++ reply.body) := by
  simp [OByteStream.written, Reply.writes, OByteStream.Write.data, Streams.Scalar.memory,
    Fixed.memory_uint8]

theorem written_request (p : Platform) (msgId : UInt8) (id : UInt16) (payload : Payload) :
    OByteStream.written p.machine (requestWrites msgId id payload) =
      MessageIDTypes.idSystemRequest.toByte :: msgId ::
        ((Fixed.uint16 id).memory p.machine.order ++ payload) := by
  simp [OByteStream.written, requestWrites, OByteStream.Write.data, Streams.Scalar.memory,
    Fixed.memory_uint8]

/-- Two bytes are an id in every byte order. -/
theorem exists_id (order : Bytes.Order) {bytes : List UInt8} (h : bytes.length = 2) :
    ∃ id, (Fixed.uint16 id).memory order = bytes := by
  have hlt := Bytes.toNat_lt order bytes
  rw [h] at hlt
  have hbits : (UInt16.ofNat (Bytes.toNat order bytes)).toNat = Bytes.toNat order bytes :=
    UInt16.toNat_ofNat_of_lt' hlt
  have hbytes := Bytes.ofNat_toNat order bytes
  rw [h] at hbytes
  refine ⟨UInt16.ofNat (Bytes.toNat order bytes), ?_⟩
  show Bytes.ofNat order 2 (UInt16.ofNat (Bytes.toNat order bytes)).toNat = bytes
  rw [hbits, hbytes]

/-! ## Responses -/

/-- What a response does to an endpoint, once its id has been read. -/
def responded (p : Platform) (e : Endpoint) (id : UInt16) : Reply → Endpoint
  | .msg payload => { e with processor := e.processor.responseMsg id payload }
  | .complete didSendValues =>
    { e with processor := e.processor.responseComplete id didSendValues }
  | .error payload => e.fail p id payload

theorem messageId_lt (reply : Reply) :
    reply.messageId.toByte < MessageIDTypes.idScenes.toByte := by
  have hall : MessageIDTypes.idRequestResponseMsg.toByte < MessageIDTypes.idScenes.toByte ∧
      MessageIDTypes.idRequestResponseComplete.toByte < MessageIDTypes.idScenes.toByte ∧
      MessageIDTypes.idRequestResponseError.toByte < MessageIDTypes.idScenes.toByte := by
    decide
  cases reply with
  | msg payload => exact hall.1
  | complete didSendValues => exact hall.2.1
  | error payload => exact hall.2.2

theorem receive_reply (h : Registered p handlers d) (id : UInt16) (reply : Reply) :
    e.receive d connection (OByteStream.written p.machine (reply.writes id)) =
      responded p e id reply := by
  obtain ⟨d₀, hregister⟩ := h.processors
  obtain ⟨-, hmsg, hcomplete, herror⟩ := registerProcessor_spec hregister
  have hread : ∀ (msgType : UInt8) (rest : List UInt8),
      Packets.IByteStream.readUInt16 p.machine.order
        ⟨[msgType], (Fixed.uint16 id).memory p.machine.order ++ rest, true⟩ p.uninitialized =
          (id, ⟨[msgType] ++ (Fixed.uint16 id).memory p.machine.order, rest, true⟩) :=
    fun _ _ => Packets.IByteStream.readUInt16_of_unread rfl rfl _
  have hdeclines : ∀ processor ∈ d.defaultProcessors, ∀ packet e,
      processor reply.messageId.toByte packet e = .ok (false, packet, e) :=
    fun processor hmem => h.declines processor hmem _ (messageId_lt reply)
  rw [written_reply]
  cases reply with
  | msg payload =>
    refine receive_of_handler hmsg hdeclines ?_
    unfold responseMsg
    dsimp only
    rw [hread]
    exact ⟨_, rfl⟩
  | complete didSendValues =>
    refine receive_of_handler hcomplete hdeclines ?_
    unfold responseComplete
    dsimp only
    rw [hread]
    cases didSendValues <;> exact ⟨_, rfl⟩
  | error payload =>
    refine receive_of_handler herror hdeclines ?_
    unfold responseError
    dsimp only
    rw [hread]
    exact ⟨_, rfl⟩

/-! ## Requests -/

/-- A request is answered by its handler, which is given the payload. The id goes through the byte
orders of both sides. -/
theorem receive_request {q : Platform} (h : Registered q handlers d) (connection : UInt64)
    {msgId : UInt8} {handler : Handler} (hhandler : handlers msgId = some handler) (p : Platform)
    (id : UInt16) (payload : Payload) (e : Endpoint) :
    ∃ requestId, (Fixed.uint16 requestId).memory q.machine.order =
        (Fixed.uint16 id).memory p.machine.order ∧
      e.receive d connection (OByteStream.written p.machine (requestWrites msgId id payload)) =
        e.answer q msgId ((RequestContext.create requestId payload).handled q.libraries
          (handler (.ofBytes payload)).1 (handler (.ofBytes payload)).2 none) := by
  obtain ⟨d₀, hregister⟩ := h.processors
  obtain ⟨hrequest, -, -, -⟩ := registerProcessor_spec hregister
  obtain ⟨requestId, hid⟩ := exists_id q.machine.order
    (Fixed.length_memory p.machine.order (.uint16 id))
  refine ⟨requestId, hid, ?_⟩
  have hread : Packets.IByteStream.readUInt16 q.machine.order
      ⟨[MessageIDTypes.idSystemRequest.toByte, msgId],
        (Fixed.uint16 id).memory p.machine.order ++ payload, true⟩ q.uninitialized =
        (requestId, ⟨[MessageIDTypes.idSystemRequest.toByte, msgId] ++
          (Fixed.uint16 requestId).memory q.machine.order, payload, true⟩) :=
    Packets.IByteStream.readUInt16_of_unread rfl (by rw [hid]) _
  rw [written_request]
  refine receive_of_handler hrequest
    (fun processor hmem => h.declines processor hmem _ (by decide)) ?_
  unfold systemRequest
  rw [Packets.IByteStream.readByte_cons rfl rfl]
  dsimp only [List.singleton_append]
  rw [hread]
  dsimp only
  rw [hhandler]
  exact ⟨_, rfl⟩

/-! ### The replies of a handler -/

/-- The id and the parameters of a request stay as they are, and nothing else depends on them. -/
theorem handled_frame (lib : Libraries) (c : RequestContext) (id : UInt16)
    (stream : Packets.IByteStream) (calls : List ContextCall) (outcome : Outcome) :
    ({ c with requestId := id, inputStream := stream } : RequestContext).handled lib calls outcome
        none =
      { c.handled lib calls outcome none with requestId := id, inputStream := stream } := by
  have hcall : ∀ (c : RequestContext) (x : ContextCall),
      ({ c with requestId := id, inputStream := stream } : RequestContext).call x =
        { c.call x with requestId := id, inputStream := stream } := by
    intro c x
    cases x with
    | send payload thrown =>
      unfold RequestContext.call RequestContext.send
      dsimp only
      split
      · rfl
      · cases thrown <;> rfl
    | complete thrown => cases thrown <;> rfl
    | error payload thrown => cases thrown <;> rfl
  have hrun : ({ c with requestId := id, inputStream := stream } : RequestContext).run calls =
      { c.run calls with requestId := id, inputStream := stream } := by
    unfold RequestContext.run
    induction calls generalizing c with
    | nil => rfl
    | cons x calls ih =>
      rw [List.foldl_cons, List.foldl_cons, hcall]
      exact ih (c.call x)
  unfold RequestContext.handled
  rw [hrun]
  unfold RequestContext.finish
  cases outcome with
  | success => dsimp only; split <;> rfl
  | threw what => dsimp only; split <;> rfl
  | failed what => dsimp only; split <;> rfl
  | other => rfl

end EndpointLemmas

end Stormancer.Requests
