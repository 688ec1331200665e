import Stormancer.Lib.Slots
import Stormancer.Streams.IByteStream

/-!
# The data that goes through a tunnel

A datagram that a game sends to the socket of a tunnel goes to the other peer in a message of the
connection: the message type, the handle and the bytes. The other peer reads them into a buffer of
1464 bytes and sends them from the socket of the tunnel that its table has for the connection and
the handle. What the socket gives of a datagram is bounded by the receive buffer of RakNet, which is
smaller.

Results:
1. `received_iff`: what was written arrives as it was exactly when it fits the buffer that it is
   read into.
2. `datagram_roundTrip`: whatever the socket gives does, under every handle.
3. `long_datagram_cut`: of 1465 bytes one would be lost.
-/

namespace Stormancer.Streams.IByteStream

/-- `std::basic_istream<byte>::readsome`, with the bytes that it copies. -/
def readsome (s : IByteStream) (n : Int) : List UInt8 × IByteStream :=
  if s.good then
    let num := s.buffer.inAvail
    if 0 < num then
      let r := s.buffer.xsgetn (min num n)
      (r.1, { s with buffer := r.2 })
    else ([], { s with good := num ≠ -1 })
  else ([], s)

open ByteStreamBuf.PointersLemmas IByteStreamLemmas in
/-- It takes what is there, as far as the buffer reaches. -/
theorem readsome_spec {s : IByteStream} (hi : s.buffer.Inv) (hgood : s.good = true) (n : Nat) :
    (s.readsome n).1 = s.unread.take n := by
  unfold readsome
  rw [if_pos hgood, inAvail_eq hi]
  dsimp only
  split
  · have hmin : min (s.unread.length : Int) n = ((min s.unread.length n : Nat) : Int) := by omega
    have hbytes : (s.buffer.xsgetn (min s.unread.length n : Nat)).1 =
        s.unread.take (min s.unread.length n) :=
      (readsContent_of_inv hi).sgetn _ (Int.natCast_nonneg _)
    rw [hmin, hbytes, Nat.min_comm, ← List.take_take, List.take_length]
  · next hempty =>
    have hnil : s.unread = [] := by
      rw [← List.length_eq_zero_iff]
      simpa using hempty
    rw [hnil, List.take_nil]

end Stormancer.Streams.IByteStream

namespace Stormancer.P2P.TunnelData

open Streams

/-! ## Definitions -/

/-- `MAXIMUM_MTU_SIZE` of the RakNet in the repository. -/
def maximumMtuSize : Nat := 1200

/-- What the socket hands over: the first `bytesRead` bytes of `data`, at least one, and the port
that they came from. -/
structure RNS2RecvStruct where
  data : List UInt8
  port : UInt16
  bytesRead_pos : 0 < data.length
  bytesRead_le : data.length ≤ maximumMtuSize

structure P2PTunnelClient where
  peerId : UInt64
  handle : UInt8
  hostPort : UInt16
  /-- Whether `socket` is set. -/
  socket : Bool
deriving DecidableEq

/-- `_tunnels`, by the peer and the handle. -/
abbrev Tunnels := Slots.Table (UInt64 × UInt8) (Option P2PTunnelClient)

/-- `MessageIDTypes::ID_P2P_TUNNEL`. -/
def idP2pTunnel : UInt8 := 59

/-- What `onMsgReceived` writes to the stream of the connection. -/
def writes (handle : UInt8) (data : List UInt8) : List OByteStream.Write :=
  [.value (.fixed (.uint8 idP2pTunnel)), .value (.fixed (.uint8 handle)), .block data]

/-- The message that is sent to the other peer. -/
def message (m : Machine) (handle : UInt8) (data : List UInt8) : Option (List UInt8) :=
  (OByteStream.create.run m (writes handle data)).bytes

/-- `P2PTunnels::onMsgReceived`, with the client after it and the message that it sends. -/
def onMsgReceived (m : Machine) (isConnected : UInt64 → Bool) (client : P2PTunnelClient)
    (recvStruct : RNS2RecvStruct) : P2PTunnelClient × Option (List UInt8) :=
  if isConnected client.peerId then
    ({ client with hostPort := recvStruct.port }, message m client.handle recvStruct.data)
  else (client, none)

/-- `P2PTunnels::receiveFrom`, with the client whose socket sends and what it sends to its host
port. `handle` is what the variable holds before it is read. -/
def receiveFrom (tunnels : Tunnels) (id : UInt64) (stream : IByteStream) (handle : UInt8) :
    Option (P2PTunnelClient × List UInt8) × Tunnels :=
  let r := stream.read 1
  let handle := r.1.headD handle
  let buffer := (r.2.readsome 1464).1
  match tunnels.lookup (id, handle) with
  | none => (none, tunnels)
  | some none => (none, tunnels.erase (id, handle))
  | some (some client) => (if client.socket then some (client, buffer) else none, tunnels)

/-- A message arrives: the dispatcher reads its type, and `receiveFrom` is its processor. -/
def dispatch (m : Machine) (tunnels : Tunnels) (id : UInt64) (bytes : List UInt8)
    (handle : UInt8) : Option (P2PTunnelClient × List UInt8) × Tunnels :=
  let r := (IByteStream.ofBytes bytes).deserialize m.order (.uint8 0)
  if r.1 = .uint8 idP2pTunnel then receiveFrom tunnels id r.2 handle else (none, tunnels)

/-! ## The message -/

section Message

variable {handle : UInt8} {data : List UInt8}

theorem message_eq (m : Machine) (handle : UInt8) {data : List UInt8}
    (hsmall : data.length + 2 < 0x80000000) :
    message m handle data = some (idP2pTunnel :: handle :: data) := by
  have hwritten : OByteStream.written m (writes handle data) = idP2pTunnel :: handle :: data := by
    simp [OByteStream.written, writes, OByteStream.Write.data, Scalar.memory, Fixed.memory_uint8]
  unfold message
  rw [OByteStream.bytes_concatenate, hwritten]
  rw [hwritten]
  simpa using hsmall

variable {tunnels : Tunnels} {id : UInt64} {client : P2PTunnelClient}

open IByteStream.IByteStreamLemmas in
/-- The handle is read, and then the data as far as the buffer reaches. -/
theorem receiveFrom_eq (hentry : tunnels.lookup (id, handle) = some (some client))
    (hsocket : client.socket = true) {s : IByteStream} (hi : s.buffer.Inv) (hgood : s.good = true)
    (hunread : s.unread = handle :: data) (handle₀ : UInt8) :
    (receiveFrom tunnels id s handle₀).1 = some (client, data.take 1464) := by
  obtain ⟨hreading, hbytes, hrest, hstill⟩ := read_spec hi hgood 1
  rw [hunread] at hbytes hrest hstill
  have hbuffer := IByteStream.readsome_spec hreading.inv (hstill.trans (by simp)) 1464
  rw [hrest] at hbuffer
  unfold receiveFrom
  dsimp only
  rw [show (s.read 1).1.headD handle₀ = handle from congrArg (·.headD handle₀) hbytes, hentry]
  dsimp only
  rw [if_pos hsocket]
  exact congrArg (fun bytes => some (client, bytes)) hbuffer

open ByteStreamBuf.PointersLemmas IByteStream.IByteStreamLemmas in
theorem dispatch_eq (hentry : tunnels.lookup (id, handle) = some (some client))
    (hsocket : client.socket = true) (m : Machine) (data : List UInt8) (handle₀ : UInt8) :
    (dispatch m tunnels id (idP2pTunnel :: handle :: data) handle₀).1 =
      some (client, data.take 1464) := by
  have hi : (IByteStream.ofBytes (idP2pTunnel :: handle :: data)).buffer.Inv := inv_create _ false
  have hunread : (IByteStream.ofBytes (idP2pTunnel :: handle :: data)).unread =
      (Fixed.uint8 idP2pTunnel).memory m.order ++ handle :: data := by
    rw [unread_ofBytes, Fixed.memory_uint8]
    rfl
  obtain ⟨htype, hgood, hrest⟩ := deserialize_of_unread hi rfl
    (show (Fixed.uint8 0).type = (Fixed.uint8 idP2pTunnel).type from rfl) hunread
  have hi' := (reading_deserialize m.order hi (.uint8 0)).inv
  unfold dispatch
  dsimp only
  rw [if_pos htype]
  exact receiveFrom_eq hentry hsocket hi' hgood hrest handle₀

/-- The other peer sends on what was written, up to 1464 bytes. -/
theorem received_eq (hentry : tunnels.lookup (id, handle) = some (some client))
    (hsocket : client.socket = true) (m m' : Machine) (hsmall : data.length + 2 < 0x80000000)
    (handle₀ : UInt8) :
    ∃ bytes, message m handle data = some bytes ∧
      (dispatch m' tunnels id bytes handle₀).1 = some (client, data.take 1464) :=
  ⟨_, message_eq m handle hsmall, dispatch_eq hentry hsocket m' data handle₀⟩

/-- The datagram arrives as it was exactly when it fits the buffer of `receiveFrom`. -/
theorem received_iff (hentry : tunnels.lookup (id, handle) = some (some client))
    (hsocket : client.socket = true) (m m' : Machine) (hsmall : data.length + 2 < 0x80000000)
    (handle₀ : UInt8) :
    (∃ bytes, message m handle data = some bytes ∧
      (dispatch m' tunnels id bytes handle₀).1 = some (client, data)) ↔ data.length ≤ 1464 := by
  obtain ⟨bytes, hbytes, hsent⟩ := received_eq hentry hsocket m m' hsmall handle₀
  rw [hbytes, ← List.take_eq_self_iff]
  constructor
  · rintro ⟨bytes', heq, hsent'⟩
    cases heq
    have hpair := Option.some.inj (hsent.symm.trans hsent')
    exact congrArg Prod.snd hpair
  · intro hfits
    exact ⟨bytes, rfl, by rw [hsent, hfits]⟩

end Message

/-! ## The round trip -/

/-- Whatever the socket gives of a datagram arrives at the client of the handle as it was. -/
theorem datagram_roundTrip (m m' : Machine) {isConnected : UInt64 → Bool}
    {client peer : P2PTunnelClient} {tunnels : Tunnels} {id : UInt64} (recvStruct : RNS2RecvStruct)
    (hconnected : isConnected client.peerId = true)
    (hentry : tunnels.lookup (id, client.handle) = some (some peer)) (hsocket : peer.socket = true)
    (handle₀ : UInt8) :
    ∃ bytes, (onMsgReceived m isConnected client recvStruct).2 = some bytes ∧
      (dispatch m' tunnels id bytes handle₀).1 = some (peer, recvStruct.data) := by
  have hle := recvStruct.bytesRead_le
  have hfits : recvStruct.data.length ≤ 1464 := hle.trans (by decide)
  have hsmall : recvStruct.data.length + 2 < 0x80000000 := by omega
  unfold onMsgReceived
  rw [if_pos hconnected]
  exact (received_iff hentry hsocket m m' hsmall handle₀).mpr hfits

/-- A datagram that fills the receive buffer. -/
def largest : RNS2RecvStruct where
  data := List.replicate 1200 9
  port := 4000
  bytesRead_pos := by rw [List.length_replicate]; decide
  bytesRead_le := by rw [List.length_replicate]; decide

theorem datagram_roundTrip_largest :
    ∃ bytes, (onMsgReceived ⟨.little, 8⟩ (· = 7) ⟨7, 3, 0, true⟩ largest).2 = some bytes ∧
      (dispatch ⟨.little, 8⟩ ((∅ : Tunnels).insert (5, 3) (some ⟨5, 3, 6000, true⟩)) 5 bytes 0).1 =
        some (⟨5, 3, 6000, true⟩, List.replicate 1200 9) :=
  datagram_roundTrip ⟨.little, 8⟩ ⟨.little, 8⟩ largest rfl (AList.lookup_insert _) rfl 0

/-- With a receive buffer of 1492 bytes a datagram would be cut off. -/
theorem long_datagram_cut :
    ¬ ∀ (m m' : Machine) (handle handle₀ : UInt8) (data : List UInt8), data.length ≤ 1492 →
      ∀ (tunnels : Tunnels) (id : UInt64) (peer : P2PTunnelClient),
        tunnels.lookup (id, handle) = some (some peer) → peer.socket = true →
          ∃ bytes, message m handle data = some bytes ∧
            (dispatch m' tunnels id bytes handle₀).1 = some (peer, data) := by
  intro hall
  have hentry : ((∅ : Tunnels).insert (5, 3) (some ⟨5, 3, 6000, true⟩)).lookup (5, 3) =
      some (some ⟨5, 3, 6000, true⟩) := AList.lookup_insert _
  have hlength : (List.replicate 1465 (9 : UInt8)).length = 1465 := List.length_replicate
  have harrives := hall ⟨.little, 8⟩ ⟨.little, 8⟩ 3 0 (List.replicate 1465 9)
    (by rw [hlength]; decide) _ 5 _ hentry rfl
  have hle := (received_iff hentry rfl _ _ (by rw [hlength]; decide) 0).mp harrives
  rw [hlength] at hle
  exact absurd hle (by decide)

end Stormancer.P2P.TunnelData
