import Mathlib.Data.UInt
import Mathlib.Logic.Relation

/-!
# `DefaultPacketDispatcher`

The stream of a packet, the ids of the messages, and the dispatch of a packet to the processors
that are registered for the ids of its layers. A processor may read from the stream, replace the
stream or the connection of the packet, and change the rest of the client (`ω`); what it throws
leaves the dispatcher.

The dispatcher handles one packet after the other, on its task. The log is left out.

Results:
1. `dispatchLoop_of_layers`: the loop on a packet of layers is the loop on what they carry.
-/

namespace Stormancer.Packets

/-! ## Streams -/

/-- An `ibytestream` on a buffer: the bytes before and after the read position. -/
structure IByteStream where
  consumed : List UInt8
  unread : List UInt8
  /-- `good()`. -/
  good : Bool
deriving DecidableEq

namespace IByteStream

/-- A stream at the start of the data. -/
def ofBytes (data : List UInt8) : IByteStream := ⟨[], data, true⟩

/-- `stream >> value` for a byte. The value is kept when there is nothing to read. -/
def readByte (s : IByteStream) (value : UInt8) : UInt8 × IByteStream :=
  if s.good then
    match s.unread with
    | [] => (value, { s with good := false })
    | b :: rest => (b, { s with consumed := s.consumed ++ [b], unread := rest })
  else (value, s)

/-- The buffer, from `startPtr()` on. -/
def bytes (s : IByteStream) : List UInt8 := s.consumed ++ s.unread

/-- The stream after a read of the given number of bytes. -/
def skip (s : IByteStream) (n : Nat) : IByteStream :=
  { s with consumed := s.consumed ++ s.unread.take n, unread := s.unread.drop n }

/-- `rdbuf()->pubsetbuf(data, size)`: the state of the stream is kept. -/
def setBuffer (s : IByteStream) (data : List UInt8) : IByteStream := ⟨[], data, s.good⟩

theorem readByte_cons {s : IByteStream} {b : UInt8} {rest : List UInt8} (hgood : s.good = true)
    (h : s.unread = b :: rest) (value : UInt8) :
    s.readByte value = (b, ⟨s.consumed ++ [b], rest, true⟩) := by
  unfold readByte
  rw [if_pos hgood, h, hgood]

end IByteStream

/-! ## Message ids -/

/-- `MessageIDTypes`. -/
inductive MessageIDTypes
  | idP2PRelay
  | idP2PTunnel
  | idAdvertisePeerId
  | idCloseReason
  | idSystemRequest
  | idEncrypted
  | idRequestResponseMsg
  | idRequestResponseComplete
  | idRequestResponseError
  | idConnectionResult
  | idScenes
deriving DecidableEq

def MessageIDTypes.toByte : MessageIDTypes → UInt8
  | .idP2PRelay => 58
  | .idP2PTunnel => 59
  | .idAdvertisePeerId => 48
  | .idCloseReason => 115
  | .idSystemRequest => 134
  | .idEncrypted => 135
  | .idRequestResponseMsg => 137
  | .idRequestResponseComplete => 138
  | .idRequestResponseError => 139
  | .idConnectionResult => 140
  | .idScenes => 141

/-! ## Dispatch -/

structure Packet where
  /-- The id of the connection. -/
  connection : UInt64
  stream : IByteStream
deriving DecidableEq

variable {ω : Type}

/-- A processor for an id. The result says whether the packet was processed. -/
abbrev HandlerFunction (ω : Type) := Packet → ω → Except String (Bool × Packet × ω)

/-- A processor for every id. -/
abbrev ProcessorFunction (ω : Type) := UInt8 → Packet → ω → Except String (Bool × Packet × ω)

structure DefaultPacketDispatcher (ω : Type) where
  handlers : UInt8 → Option (HandlerFunction ω)
  defaultProcessors : List (ProcessorFunction ω)

/-- The state of the loop of `dispatchImpl`. -/
structure Dispatch (ω : Type) where
  msgType : UInt8
  packet : Packet
  world : ω

namespace DefaultPacketDispatcher

/-- `_maxLayerCount`. -/
def maxLayerCount : Nat := 40

/-- `PacketProcessorConfig::addProcessor`. -/
def addProcessor (d : DefaultPacketDispatcher ω) (msgId : UInt8) (handler : HandlerFunction ω) :
    Except String (DefaultPacketDispatcher ω) :=
  if (d.handlers msgId).isSome then
    .error s!"An handler is already registered for id {msgId}."
  else .ok { d with handlers := Function.update d.handlers msgId (some handler) }

/-- `PacketProcessorConfig::addCatchAllProcessor`. -/
def addCatchAllProcessor (d : DefaultPacketDispatcher ω) (processor : ProcessorFunction ω) :
    DefaultPacketDispatcher ω :=
  { d with defaultProcessors := d.defaultProcessors ++ [processor] }

/-- The id that one round of the loop reads, and the state after the read. -/
def readType (s : Dispatch ω) : Dispatch ω :=
  { s with
    msgType := (s.packet.stream.readByte s.msgType).1
    packet := { s.packet with stream := (s.packet.stream.readByte s.msgType).2 } }

/-- The loop of `dispatchImpl`, with the number of layers that may still be read. -/
def dispatchLoop (d : DefaultPacketDispatcher ω) :
    Nat → Dispatch ω → Except String (Bool × Dispatch ω)
  | 0, s => .ok (false, s)
  | n + 1, s =>
    match d.handlers (readType s).msgType with
    | none => .ok (false, readType s)
    | some handler =>
      match handler (readType s).packet (readType s).world with
      | .error text => .error text
      | .ok (true, packet, world) => .ok (true, ⟨(readType s).msgType, packet, world⟩)
      | .ok (false, packet, world) => dispatchLoop d n ⟨(readType s).msgType, packet, world⟩

/-- The catch-all processors, until one has processed the packet. -/
def runProcessors : List (ProcessorFunction ω) → Bool → Dispatch ω →
    Except String (Bool × Dispatch ω)
  | [], processed, s => .ok (processed, s)
  | processor :: rest, processed, s =>
    match processor s.msgType s.packet s.world with
    | .error text => .error text
    | .ok (true, packet, world) => .ok (true, ⟨s.msgType, packet, world⟩)
    | .ok (false, packet, world) => runProcessors rest processed ⟨s.msgType, packet, world⟩

/-- `dispatchImpl`. -/
def dispatchImpl (d : DefaultPacketDispatcher ω) (packet : Packet) (world : ω) :
    Except String (Bool × Dispatch ω) :=
  match d.dispatchLoop maxLayerCount ⟨0, packet, world⟩ with
  | .error text => .error text
  | .ok (processed, s) => runProcessors d.defaultProcessors processed s

/-! ## Layers -/

/-- One round of the loop that goes on: a layer was removed from the packet. -/
def Layer (d : DefaultPacketDispatcher ω) (s s' : Dispatch ω) : Prop :=
  ∃ handler packet world, d.handlers (readType s).msgType = some handler ∧
    handler (readType s).packet (readType s).world = .ok (false, packet, world) ∧
    s' = ⟨(readType s).msgType, packet, world⟩

/-- `n` layers were removed. -/
inductive Layers (d : DefaultPacketDispatcher ω) : Nat → Dispatch ω → Dispatch ω → Prop
  | refl (s : Dispatch ω) : Layers d 0 s s
  | tail {n : Nat} {s s' s'' : Dispatch ω} : Layers d n s s' → d.Layer s' s'' →
      Layers d (n + 1) s s''

theorem dispatchLoop_of_layer {d : DefaultPacketDispatcher ω} {s s' : Dispatch ω}
    (h : d.Layer s s') (n : Nat) : d.dispatchLoop (n + 1) s = d.dispatchLoop n s' := by
  obtain ⟨handler, packet, world, hhandler, hok, rfl⟩ := h
  rw [dispatchLoop, hhandler]
  dsimp only
  rw [hok]

/-- The loop on a packet of layers is the loop on what they carry. -/
theorem dispatchLoop_of_layers {d : DefaultPacketDispatcher ω} {k : Nat} {s s' : Dispatch ω}
    (h : d.Layers k s s') (n : Nat) : d.dispatchLoop (n + k) s = d.dispatchLoop n s' := by
  induction h generalizing n with
  | refl => rfl
  | @tail k s s' s'' _ hlayer ih =>
    rw [Nat.add_comm k 1, ← Nat.add_assoc, ih, dispatchLoop_of_layer hlayer]

end DefaultPacketDispatcher
end Stormancer.Packets
