import Stormancer.Lib.MsgpackCodec
import Stormancer.Packets.AesWindows
import Stormancer.Packets.Dispatcher

/-!
# Encrypted packets

`AESPacketTransform` with the streams that it encrypts and decrypts with, the processor
`PacketTransformProcessor` for encrypted packets, and the processor of relayed packets. The rest
of the client is `AESWindows × τ`.

Results:
1. `roundTrips_iff`: an encrypted packet reaches the inner processors as its payload exactly when
   the payload is not empty and the packet starts the buffer, or when the bytes that are taken
   for the packet happen to be a sealed message of the same payload.
2. `dispatch_carried`: a packet whose encrypted layer round trips is dispatched as its payload.
3. `relayed_packet_fails`: an encrypted packet after a relay header does not round trip.
-/

namespace Stormancer.Packets

open Aead AESWindows

variable {τ : Type} (gcm : Scheme tagSize)

/-! ## The code -/

/-- `AESEncryptStream::encrypt`. -/
def aesEncryptStream (aes : AESWindows) (iv data : Bytes) (keyId : UInt64) :
    Except String Bytes × AESWindows :=
  if data.length > 0 then aes.encrypt gcm data iv keyId else (.ok [], aes)

/-- `AESPacketTransform::onSend`, with the IV that is drawn for the packet. -/
def onSend (aes : AESWindows) (enabled dontEncrypt : Bool) (iv payload : Bytes) (peerId : UInt64) :
    Except String Bytes × AESWindows :=
  if enabled && !dontEncrypt then
    match aesEncryptStream gcm aes iv payload peerId with
    | (.error text, aes) => (.error text, aes)
    | (.ok data, aes) => (.ok (MessageIDTypes.idEncrypted.toByte :: data), aes)
  else (.ok payload, aes)

/-- `AESDecryptStream::decrypt`. -/
def aesDecryptStream (aes : AESWindows) (data : Bytes) (keyId : UInt64) :
    Except String Bytes × AESWindows :=
  if data.length > 0 then aes.decrypt gcm (data.drop ivSize) (data.take ivSize) keyId
  else (.ok [], aes)

/-- The bytes that `onReceive` takes for the encrypted data: as many as are left to read, from
`startPtr() + 1` on. -/
def encryptedData (stream : IByteStream) : Bytes :=
  (stream.bytes.drop 1).take stream.unread.length

/-- `AESPacketTransform::onReceive`. -/
def onReceive (aes : AESWindows) (stream : IByteStream) (peerId : UInt64) :
    Except String IByteStream × AESWindows :=
  if stream.unread = [] then (.ok stream, aes)
  else
    match aesDecryptStream gcm aes (encryptedData stream) peerId with
    | (.error text, aes) => (.error text, aes)
    | (.ok plain, aes) => (.ok (stream.setBuffer plain), aes)

/-- The processor of `PacketTransformProcessor`. -/
def transformHandler : HandlerFunction (AESWindows × τ) := fun p world =>
  match onReceive gcm world.1 p.stream p.connection with
  | (.error text, _) => .error text
  | (.ok stream, aes) => .ok (false, { p with stream := stream }, (aes, world.2))

/-- What the exceptions of `msgpack` say. -/
def errorText : Msgpack.Error → String
  | .insufficientBytes => "insufficient bytes"
  | .parseError => "parse error"
  | .typeError | .undefinedKey => "std::bad_cast"

/-- `Serializer::deserialize` of a `uint64`, with the number of bytes that it takes. -/
def decodeUInt64 (bytes : Bytes) : Except String (UInt64 × Nat) :=
  match Msgpack.unpack bytes with
  | .error e => .error (errorText e)
  | .ok (o, size) =>
    match (Msgpack.unsignedCodec 8).convert 0 o with
    | .error e => .error (errorText e)
    | .ok n => .ok (UInt64.ofNat n, size)

/-- The processor for `ID_P2P_RELAY`. `connections` are the ids of the connections. -/
def relayHandler (connections : List UInt64) : HandlerFunction (AESWindows × τ) := fun p world =>
  match decodeUInt64 p.stream.unread with
  | .error text => .error text
  | .ok (peerId, size) =>
    if connections.contains peerId then
      .ok (false, ⟨peerId, p.stream.skip size⟩, world)
    else
      .error s!"ID_P2P_RELAY processor: Connection for peer Id {peerId} was not found"

/-! ## Round trips -/

/-- The layer is removed, and the inner processors get the payload: the stream holds its bytes,
with nothing before or after them. -/
def RoundTrips (d : DefaultPacketDispatcher (AESWindows × τ)) (s : Dispatch (AESWindows × τ))
    (payload : Bytes) : Prop :=
  ∃ s', d.Layer s s' ∧ s'.packet = ⟨s.packet.connection, IByteStream.ofBytes payload⟩

/-- The key that the object encrypts with for the id. -/
def SendsUnder (aes : AESWindows) (peerId : UInt64) (key : Bytes) : Prop :=
  ∃ aes', aes.initAES peerId = .ok aes' ∧ aes'.handle peerId = some key

/-! ## Lemmas -/

namespace EncryptionLemmas

/-- What `onSend` produces. -/
theorem onSend_eq {aes : AESWindows} {peerId : UInt64} {key iv payload : Bytes}
    (hkey : SendsUnder aes peerId key) :
    (onSend gcm aes true false iv payload peerId).1 =
      .ok (MessageIDTypes.idEncrypted.toByte ::
        if payload = [] then [] else gcm.sealed key iv payload) := by
  obtain ⟨aes', hinit, hhandle⟩ := hkey
  unfold onSend aesEncryptStream
  cases payload with
  | nil => rfl
  | cons b rest =>
    simp only [List.length_cons, gt_iff_lt, Nat.zero_lt_succ, if_true, encrypt, hinit, hhandle]
    rfl

theorem encryptedData_length (stream : IByteStream) (hne : stream.consumed ≠ []) :
    (encryptedData stream).length = stream.unread.length := by
  have hpos := List.length_pos_iff.mpr hne
  unfold encryptedData IByteStream.bytes
  rw [List.length_take, List.length_drop, List.length_append]
  omega

/-- A stream of encrypted data is replaced by the plaintext that the data opens to. -/
theorem onReceive_eq_ok {aes : AESWindows} {peerId : UInt64} {key : Bytes}
    (hkey : aes.handle peerId = some key) {stream : IByteStream} (hne : stream.unread ≠ [])
    (hstart : stream.consumed ≠ []) {stream' : IByteStream} :
    (onReceive gcm aes stream peerId).1 = .ok stream' ↔
      ∃ plain, gcm.openSealed ivSize key (encryptedData stream) = some plain ∧
        stream' = stream.setBuffer plain := by
  have hlen : (encryptedData stream).length > 0 := by
    rw [encryptedData_length stream hstart]
    exact List.length_pos_iff.mpr hne
  unfold onReceive aesDecryptStream decrypt
  rw [if_neg hne, if_pos hlen, hkey]
  unfold Scheme.openSealed
  dsimp only
  cases gcm.openBody key ((encryptedData stream).take ivSize)
      ((encryptedData stream).drop ivSize) with
  | none => simp
  | some plain => simp [eq_comm]

/-- One round of the loop on an encrypted packet, after the id was read. -/
theorem layer_iff {d : DefaultPacketDispatcher (AESWindows × τ)}
    (hreg : d.handlers MessageIDTypes.idEncrypted.toByte = some (transformHandler gcm))
    {s s' : Dispatch (AESWindows × τ)} {data : Bytes} (hgood : s.packet.stream.good = true)
    (hunread : s.packet.stream.unread = MessageIDTypes.idEncrypted.toByte :: data) :
    d.Layer s s' ↔ ∃ stream aes, onReceive gcm s.world.1
        ⟨s.packet.stream.consumed ++ [MessageIDTypes.idEncrypted.toByte], data, true⟩
        s.packet.connection = (.ok stream, aes) ∧
      s' = ⟨MessageIDTypes.idEncrypted.toByte, ⟨s.packet.connection, stream⟩,
        (aes, s.world.2)⟩ := by
  have hread := IByteStream.readByte_cons hgood hunread s.msgType
  unfold DefaultPacketDispatcher.Layer DefaultPacketDispatcher.readType
  rw [hread]
  dsimp only
  rw [hreg]
  constructor
  · rintro ⟨handler, packet, world, hhandler, hok, rfl⟩
    cases hhandler
    unfold transformHandler at hok
    split at hok
    · cases hok
    · next stream aes heq =>
      cases hok
      exact ⟨stream, aes, heq, rfl⟩
  · rintro ⟨stream, aes, heq, rfl⟩
    refine ⟨_, _, _, rfl, ?_, rfl⟩
    unfold transformHandler
    dsimp only
    rw [heq]

/-- A layer round trips when `onReceive` gives a fresh stream of the payload. -/
theorem roundTrips_iff_onReceive {d : DefaultPacketDispatcher (AESWindows × τ)}
    (hreg : d.handlers MessageIDTypes.idEncrypted.toByte = some (transformHandler gcm))
    {s : Dispatch (AESWindows × τ)} {data payload : Bytes} (hgood : s.packet.stream.good = true)
    (hunread : s.packet.stream.unread = MessageIDTypes.idEncrypted.toByte :: data) :
    RoundTrips d s payload ↔ (onReceive gcm s.world.1
      ⟨s.packet.stream.consumed ++ [MessageIDTypes.idEncrypted.toByte], data, true⟩
      s.packet.connection).1 = .ok (IByteStream.ofBytes payload) := by
  constructor
  · rintro ⟨s', hlayer, hpacket⟩
    obtain ⟨stream, aes, heq, rfl⟩ := (layer_iff gcm hreg hgood hunread).mp hlayer
    rw [heq]
    cases hpacket
    rfl
  · intro hok
    exact ⟨_, (layer_iff gcm hreg hgood hunread).mpr ⟨_, _, Prod.ext hok rfl, rfl⟩, rfl⟩

end EncryptionLemmas

open EncryptionLemmas

/-! ## Main results -/

/-- An encrypted packet, after any layers that were removed before it: it reaches the inner
processors as its payload exactly when the payload is not empty and the encrypted layer starts
the buffer. The other way to the payload is that the bytes which are taken for the encrypted
data happen to be a sealed message of the same payload under the same key. -/
theorem roundTrips_iff {d : DefaultPacketDispatcher (AESWindows × τ)}
    (hreg : d.handlers MessageIDTypes.idEncrypted.toByte = some (transformHandler gcm))
    {sender : AESWindows} {peerId : UInt64} {key iv payload packet : Bytes}
    (hsender : SendsUnder sender peerId key) (hiv : iv.length = ivSize)
    (hsend : (onSend gcm sender true false iv payload peerId).1 = .ok packet)
    {s : Dispatch (AESWindows × τ)} (hreceiver : s.world.1.handle s.packet.connection = some key)
    (hgood : s.packet.stream.good = true) (hunread : s.packet.stream.unread = packet) :
    RoundTrips d s payload ↔ payload ≠ [] ∧ (s.packet.stream.consumed = [] ∨
      ∃ nonce : Bytes, nonce.length = ivSize ∧
        ((s.packet.stream.consumed ++ packet).drop 1).take (packet.length - 1) =
          gcm.sealed key nonce payload) := by
  rw [onSend_eq gcm hsender] at hsend
  cases hsend
  rw [roundTrips_iff_onReceive gcm hreg hgood hunread]
  by_cases hempty : payload = []
  · subst hempty
    simp [onReceive, IByteStream.ofBytes]
  · have hsealed : (if payload = [] then [] else gcm.sealed key iv payload) =
        gcm.sealed key iv payload := if_neg hempty
    rw [hsealed]
    have hlen : (gcm.sealed key iv payload).length = ivSize + (payload.length + tagSize) := by
      rw [gcm.sealed_length, hiv]
    have hne : gcm.sealed key iv payload ≠ [] := by
      rw [← List.length_pos_iff, hlen]
      exact Nat.add_pos_left (by decide) _
    have hdata : encryptedData ⟨s.packet.stream.consumed ++ [MessageIDTypes.idEncrypted.toByte],
        gcm.sealed key iv payload, true⟩ =
        ((s.packet.stream.consumed ++
          MessageIDTypes.idEncrypted.toByte :: gcm.sealed key iv payload).drop 1).take
          ((MessageIDTypes.idEncrypted.toByte :: gcm.sealed key iv payload).length - 1) := by
      unfold encryptedData IByteStream.bytes
      rw [List.append_assoc, List.singleton_append, List.length_cons, Nat.add_sub_cancel]
    have hwindow : ivSize ≤ (encryptedData
        ⟨s.packet.stream.consumed ++ [MessageIDTypes.idEncrypted.toByte],
          gcm.sealed key iv payload, true⟩).length := by
      rw [encryptedData_length _ (by simp), hlen]
      omega
    rw [onReceive_eq_ok gcm hreceiver hne (by simp), ← hdata]
    constructor
    · rintro ⟨plain, hopen, hstream⟩
      have hplain : payload = plain := congrArg IByteStream.unread hstream
      subst hplain
      exact ⟨hempty, .inr ((gcm.openSealed_eq_some hwindow).mp hopen)⟩
    · rintro ⟨-, hstart | hseal⟩
      · refine ⟨payload, (gcm.openSealed_eq_some hwindow).mpr ⟨iv, hiv, ?_⟩, rfl⟩
        rw [hdata, hstart]
        exact List.take_length
      · exact ⟨payload, (gcm.openSealed_eq_some hwindow).mpr hseal, rfl⟩

/-- The dispatch of a packet whose layers are removed and whose encrypted layer then round trips
is the dispatch of the payload, with the layers that are left. -/
theorem dispatch_carried {d : DefaultPacketDispatcher (AESWindows × τ)} {k : Nat}
    {start s : Dispatch (AESWindows × τ)} {payload : Bytes} (hlayers : d.Layers k start s)
    (hround : RoundTrips d s payload) (n : Nat) :
    ∃ msgType world, d.dispatchLoop (n + (k + 1)) start =
      d.dispatchLoop n ⟨msgType, ⟨s.packet.connection, IByteStream.ofBytes payload⟩, world⟩ := by
  obtain ⟨⟨msgType, packet, world⟩, hlayer, rfl⟩ := hround
  exact ⟨msgType, world, DefaultPacketDispatcher.dispatchLoop_of_layers (hlayers.tail hlayer) n⟩

/-- The processors of relayed and of encrypted packets. -/
def layerDispatcher (connections : List UInt64) :
    DefaultPacketDispatcher (AESWindows × τ) where
  handlers := Function.update
    (Function.update (fun _ => none) MessageIDTypes.idP2PRelay.toByte
      (some (relayHandler connections)))
    MessageIDTypes.idEncrypted.toByte (some (transformHandler gcm))
  defaultProcessors := []

/-- The key of zeros is in use for the connection 5. -/
def established : AESWindows where
  keys := (∅ : Slots.Table UInt64 Bytes).insert 5 (List.replicate 32 0)
  keyHandles := (∅ : Slots.Table UInt64 (Option Bytes)).insert 5 (some (List.replicate 32 0))

/-- What `onSend` makes of the packet of the byte 141. -/
def wire : Bytes :=
  135 :: (List.replicate ivSize 0 ++
    [67, 34, 109, 133, 31, 192, 46, 141, 113, 10, 153, 127, 118])

theorem roundTrips_outermost : RoundTrips (layerDispatcher zeroKeyGcm [])
    ⟨0, ⟨5, IByteStream.ofBytes wire⟩, (established, ())⟩ [141] := by
  have hsender : SendsUnder established 5 (List.replicate 32 0) := ⟨established, rfl, by decide⟩
  have hsend : (onSend zeroKeyGcm established true false (List.replicate ivSize 0) [141] 5).1 =
      .ok wire := by decide
  exact (roundTrips_iff zeroKeyGcm rfl hsender rfl hsend (by decide) rfl rfl).mpr
    ⟨by decide, .inl rfl⟩

/-- The encrypted packet arrives after a relay header for the connection 5. The bytes that are
decrypted begin with that header. -/
theorem relayed_packet_fails : ∃ s,
    (layerDispatcher zeroKeyGcm [5]).Layers 1
      ⟨0, ⟨1, IByteStream.ofBytes ([58, 5] ++ wire)⟩, (established, ())⟩ s ∧
    (onSend zeroKeyGcm established true false (List.replicate ivSize 0) [141] 5).1 = .ok wire ∧
    s.packet.stream.unread = wire ∧
    ¬ RoundTrips (layerDispatcher zeroKeyGcm [5]) s [141] := by
  refine ⟨⟨58, ⟨5, ⟨[58, 5], wire, true⟩⟩, (established, ())⟩, ?_, by decide, rfl, ?_⟩
  · exact .tail (.refl _) ⟨_, _, _, rfl, rfl, rfl⟩
  · rw [roundTrips_iff_onReceive zeroKeyGcm (by rfl) rfl rfl]
    decide

end Stormancer.Packets
