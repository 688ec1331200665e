import Stormancer.Packets.Encryption

/-!
# The bounds of a decryption

The functions that decrypt a packet with the memory that they read: ranges of bytes, from
`startPtr()` of the stream on. A read outside of the received bytes, or of a nonce that was not
copied in full, is undefined, and so is the result. The length of the ciphertext is computed with
32 bits.

Results:
1. `Bounds.onReceive_eq`: within the bounds, the functions compute what they do without them.
2. `handled_iff`: nothing outside is read and the length does not wrap exactly when there is no
   data, or the data after the id are at least a nonce and a tag.
3. `short_packet_wraps`: a packet with one byte of encrypted data.
-/

namespace Stormancer.Packets

open Aead AESWindows

/-! ## Definitions -/

/-- A range of bytes of a packet. -/
structure Range where
  offset : Int
  size : Nat

def Range.Inside (r : Range) (bytes : Bytes) : Prop :=
  0 ≤ r.offset ∧ r.offset + r.size ≤ bytes.length

instance (r : Range) (bytes : Bytes) : Decidable (r.Inside bytes) :=
  inferInstanceAs (Decidable (_ ∧ _))

/-- The bytes of the range, if all of them are there. -/
def Range.read (r : Range) (bytes : Bytes) : Option Bytes :=
  if r.Inside bytes then some ((bytes.drop r.offset.toNat).take r.size) else none

namespace Bounds

/-- `static_cast<ULONG>(dataSize) - tagSize`. -/
def cipherSize (dataSize : Nat) : UInt32 := UInt32.ofNat dataSize - UInt32.ofNat tagSize

/-- `pbInput` of `BCryptDecrypt`. -/
def cipherRange (dataPtr : Int) (dataSize : Nat) : Range := ⟨dataPtr, (cipherSize dataSize).toNat⟩

/-- `authInfo.pbTag`. -/
def tagRange (dataPtr : Int) (dataSize : Nat) : Range := ⟨dataPtr + dataSize - tagSize, tagSize⟩

variable (gcm : Scheme tagSize)

/-- `AESWindows::decrypt`. -/
def decrypt (aes : AESWindows) (packet : Bytes) (dataPtr : Int) (dataSize : Nat) (iv : Bytes)
    (keyId : UInt64) : Option (Except String Bytes × AESWindows) :=
  match (cipherRange dataPtr dataSize).read packet, (tagRange dataPtr dataSize).read packet with
  | some cipher, some tag =>
    some (match aes.handle keyId with
      | none => .error "Error STATUS_INVALID_HANDLE (0xc0000008) returned by BCryptDecrypt"
      | some key =>
        match gcm.decrypt key iv cipher tag with
        | none => .error "Error STATUS_AUTH_TAG_MISMATCH (0xc000a002) returned by BCryptDecrypt"
        | some plain => .ok plain,
      aes.handleEntry keyId)
  | _, _ => none

/-- `ibs.read(ivPtr, ivSize)`. -/
def ivRange (dataPtr : Int) (dataSize : Nat) : Range := ⟨dataPtr, min ivSize dataSize⟩

/-- `dataLeft`. -/
def dataLeft (dataSize : Nat) : Nat := dataSize - min ivSize dataSize

/-- `AESDecryptStream::decrypt`. The nonce is copied to new memory that is not initialised. -/
def aesDecryptStream (aes : AESWindows) (packet : Bytes) (dataPtr : Int) (dataSize : Nat)
    (keyId : UInt64) : Option (Except String Bytes × AESWindows) :=
  if dataSize > 0 then
    match (ivRange dataPtr dataSize).read packet with
    | none => none
    | some iv =>
      if iv.length < ivSize then none
      else decrypt gcm aes packet (dataPtr + ivSize) (dataLeft dataSize) iv keyId
  else some (.ok [], aes)

/-- `AESPacketTransform::onReceive`. The plaintext is copied over the encrypted data. -/
def onReceive (aes : AESWindows) (stream : IByteStream) (peerId : UInt64) :
    Option (Except String IByteStream × AESWindows) :=
  if stream.unread = [] then some (.ok stream, aes)
  else
    match aesDecryptStream gcm aes stream.bytes 1 stream.unread.length peerId with
    | none => none
    | some (.error text, aes) => some (.error text, aes)
    | some (.ok plain, aes) =>
      if (Range.mk 1 plain.length).Inside stream.bytes then some (.ok (stream.setBuffer plain), aes)
      else none

end Bounds

/-! ## The property -/

/-- The call returns a plaintext or throws, and when there is data, the subtraction of the size of
the tag does not wrap. -/
structure Handled (gcm : Scheme tagSize) (aes : AESWindows) (stream : IByteStream)
    (peerId : UInt64) : Prop where
  defined : (Bounds.onReceive gcm aes stream peerId).isSome = true
  exact : stream.unread ≠ [] →
    (Bounds.cipherSize (Bounds.dataLeft stream.unread.length)).toNat + tagSize =
      (UInt32.ofNat (Bounds.dataLeft stream.unread.length)).toNat

/-- The id was read, and the data is at least a nonce and a tag. The size of what follows the nonce
is cut to 32 bits. -/
def LongEnough (stream : IByteStream) : Prop :=
  stream.consumed ≠ [] ∧ ivSize ≤ stream.unread.length ∧
    tagSize ≤ (stream.unread.length - ivSize) % 0x100000000

namespace BoundsLemmas

variable {gcm : Scheme tagSize} {aes : AESWindows} {packet : Bytes} {stream : IByteStream}
  {peerId : UInt64}

theorem read_of_inside {r : Range} (h : r.Inside packet) :
    r.read packet = some ((packet.drop r.offset.toNat).take r.size) := if_pos h

theorem read_eq_some {r : Range} {bytes : Bytes} (h : r.read packet = some bytes) :
    r.Inside packet ∧ bytes.length = r.size := by
  unfold Range.read at h
  split at h
  · next hin =>
    cases h
    obtain ⟨hoffset, hend⟩ := hin
    refine ⟨⟨hoffset, hend⟩, ?_⟩
    rw [List.length_take, List.length_drop]
    omega
  · cases h

/-- The subtraction wraps exactly when the size is less than that of the tag. -/
theorem cipherSize_exact_iff (dataSize : Nat) :
    (Bounds.cipherSize dataSize).toNat + tagSize = (UInt32.ofNat dataSize).toNat ↔
      tagSize ≤ dataSize % 0x100000000 := by
  unfold Bounds.cipherSize
  rw [UInt32.toNat_sub, UInt32.toNat_ofNat', UInt32.toNat_ofNat']
  have hlt : dataSize % 0x100000000 < 0x100000000 := Nat.mod_lt _ (by decide)
  change (0x100000000 - 12 % 0x100000000 + dataSize % 0x100000000) % 0x100000000 + 12 =
    dataSize % 0x100000000 ↔ 12 ≤ dataSize % 0x100000000
  omega

theorem cipherSize_of_le {dataSize : Nat} (h : tagSize ≤ dataSize % 0x100000000) :
    (Bounds.cipherSize dataSize).toNat = dataSize % 0x100000000 - tagSize := by
  have hexact := (cipherSize_exact_iff dataSize).mpr h
  rw [UInt32.toNat_ofNat'] at hexact
  exact Nat.eq_sub_of_add_eq hexact

theorem length_bytes (stream : IByteStream) :
    stream.bytes.length = stream.consumed.length + stream.unread.length := by
  unfold IByteStream.bytes
  rw [List.length_append]

/-- What has to be there for a call with data. -/
theorem ranges_of_defined (hne : stream.unread ≠ [])
    (h : (Bounds.onReceive gcm aes stream peerId).isSome = true) :
    ivSize ≤ stream.unread.length ∧ (Bounds.tagRange (1 + ivSize)
      (Bounds.dataLeft stream.unread.length)).Inside stream.bytes := by
  unfold Bounds.onReceive Bounds.aesDecryptStream at h
  rw [if_neg hne, if_pos (List.length_pos_of_ne_nil hne)] at h
  cases hiv : (Bounds.ivRange 1 stream.unread.length).read stream.bytes with
  | none => simp [hiv] at h
  | some iv =>
    rw [hiv] at h
    dsimp only at h
    have hlength : iv.length = min ivSize stream.unread.length := (read_eq_some hiv).2
    by_cases hshort : iv.length < ivSize
    · simp [hshort] at h
    · rw [if_neg hshort] at h
      refine ⟨by omega, ?_⟩
      by_contra hout
      have hnone : (Bounds.tagRange (1 + ivSize) (Bounds.dataLeft stream.unread.length)).read
          stream.bytes = none := if_neg hout
      unfold Bounds.decrypt at h
      rw [hnone] at h
      simp at h

/-- The ranges of a packet that is long enough. -/
structure Within (stream : IByteStream) : Prop where
  iv : (Bounds.ivRange 1 stream.unread.length).Inside stream.bytes
  cipher : (Bounds.cipherRange (1 + ivSize) (Bounds.dataLeft stream.unread.length)).Inside
    stream.bytes
  tag : (Bounds.tagRange (1 + ivSize) (Bounds.dataLeft stream.unread.length)).Inside stream.bytes

theorem dataLeft_of_le {n : Nat} (h : ivSize ≤ n) : Bounds.dataLeft n = n - ivSize := by
  unfold Bounds.dataLeft
  rw [min_eq_left h]

theorem within_of_longEnough (h : LongEnough stream) : Within stream := by
  obtain ⟨hconsumed, hiv, htag⟩ := h
  have hpos := List.length_pos_of_ne_nil hconsumed
  have hlength := length_bytes stream
  have hcipher := cipherSize_of_le htag
  have hmod := Nat.mod_le (stream.unread.length - ivSize) 0x100000000
  have hleft := dataLeft_of_le hiv
  refine ⟨⟨zero_le_one, ?_⟩, ⟨(by decide : (0 : Int) ≤ 1 + ivSize), ?_⟩, ⟨?_, ?_⟩⟩
  · simp only [Bounds.ivRange, hlength, min_eq_left hiv]
    omega
  · simp only [Bounds.cipherRange, hlength, hleft, hcipher]
    omega
  · simp only [Bounds.tagRange, hleft]
    omega
  · simp only [Bounds.tagRange, hlength, hleft]
    omega

/-- A plaintext is as long as its ciphertext. -/
theorem length_of_decrypt {key iv cipher tag plain : Bytes}
    (h : gcm.decrypt key iv cipher tag = some plain) : plain.length = cipher.length := by
  rw [← gcm.cipher_length key iv plain, (gcm.decrypt_eq_some key iv cipher tag plain).mp h]

/-- The call on a packet that is long enough, with the bytes that it reads. -/
theorem onReceive_of_longEnough (gcm : Scheme tagSize) (aes : AESWindows) (peerId : UInt64)
    (hne : stream.unread ≠ []) (h : LongEnough stream) :
    let range (r : Range) : Bytes := (stream.bytes.drop r.offset.toNat).take r.size
    let left := Bounds.dataLeft stream.unread.length
    Bounds.onReceive gcm aes stream peerId =
      some (match aes.handle peerId with
        | none =>
          (.error "Error STATUS_INVALID_HANDLE (0xc0000008) returned by BCryptDecrypt",
            aes.handleEntry peerId)
        | some key =>
          match gcm.decrypt key (range (Bounds.ivRange 1 stream.unread.length))
              (range (Bounds.cipherRange (1 + ivSize) left))
              (range (Bounds.tagRange (1 + ivSize) left)) with
          | none =>
            (.error "Error STATUS_AUTH_TAG_MISMATCH (0xc000a002) returned by BCryptDecrypt",
              aes.handleEntry peerId)
          | some plain => (.ok (stream.setBuffer plain), aes.handleEntry peerId)) := by
  intro range left
  have hwithin := within_of_longEnough h
  have hiv := read_of_inside hwithin.iv
  have hlength : ¬ (range (Bounds.ivRange 1 stream.unread.length)).length < ivSize := by
    have hsize : (range (Bounds.ivRange 1 stream.unread.length)).length =
        min ivSize stream.unread.length := (read_eq_some hiv).2
    rw [hsize, min_eq_left h.2.1]
    exact lt_irrefl _
  have hcipher := read_of_inside hwithin.cipher
  unfold Bounds.onReceive Bounds.aesDecryptStream
  rw [if_neg hne, if_pos (List.length_pos_of_ne_nil hne), hiv]
  dsimp only
  rw [if_neg hlength]
  unfold Bounds.decrypt
  rw [hcipher, read_of_inside hwithin.tag]
  dsimp only
  cases aes.handle peerId with
  | none => rfl
  | some key =>
    dsimp only
    cases hplain : gcm.decrypt key (range (Bounds.ivRange 1 stream.unread.length))
        (range (Bounds.cipherRange (1 + ivSize) left))
        (range (Bounds.tagRange (1 + ivSize) left)) with
    | none => rfl
    | some plain =>
      have hsize : plain.length = (Bounds.cipherRange (1 + ivSize) left).size :=
        (length_of_decrypt hplain).trans (read_eq_some hcipher).2
      have hend : (1 + ivSize : Int) + (Bounds.cipherRange (1 + ivSize) left).size ≤
          stream.bytes.length := hwithin.cipher.2
      have hinside : (Range.mk 1 plain.length).Inside stream.bytes := by
        refine ⟨zero_le_one, ?_⟩
        dsimp only
        rw [hsize]
        omega
      dsimp only
      rw [if_pos hinside]

end BoundsLemmas

open BoundsLemmas

/-! ## Results -/

/-- Unless the size is cut to 32 bits, the call is the one that has no bounds. -/
theorem Bounds.onReceive_eq (gcm : Scheme tagSize) (aes : AESWindows) {stream : IByteStream}
    (peerId : UInt64) (hne : stream.unread ≠ []) (h : LongEnough stream)
    (hsmall : stream.unread.length < 0x100000000) :
    Bounds.onReceive gcm aes stream peerId = some (Packets.onReceive gcm aes stream peerId) := by
  obtain ⟨hconsumed, hiv, htag⟩ := id h
  have hdata := EncryptionLemmas.encryptedData_length stream hconsumed
  have hleft := dataLeft_of_le hiv
  have hsize := cipherSize_of_le htag
  rw [Nat.mod_eq_of_lt (by omega)] at hsize htag
  have hnonce : (encryptedData stream).take ivSize = (stream.bytes.drop 1).take ivSize := by
    unfold encryptedData
    rw [List.take_take, min_eq_left hiv]
  have hrest : (encryptedData stream).drop ivSize =
      (stream.bytes.drop (1 + ivSize)).take (stream.unread.length - ivSize) := by
    unfold encryptedData
    rw [List.drop_take, List.drop_drop]
  have hrestLength : ((encryptedData stream).drop ivSize).length =
      stream.unread.length - ivSize := by
    rw [List.length_drop, hdata]
  rw [onReceive_of_longEnough gcm aes peerId hne h]
  unfold Packets.onReceive Packets.aesDecryptStream AESWindows.decrypt Scheme.openBody
  rw [if_neg hne, if_pos (by rw [hdata]; exact List.length_pos_of_ne_nil hne), hrestLength, hnonce,
    hrest, List.take_take, List.drop_take, List.drop_drop]
  unfold Bounds.ivRange Bounds.cipherRange Bounds.tagRange
  rw [hleft, hsize, min_eq_left hiv]
  have htagOffset : (1 + ivSize + (stream.unread.length - ivSize : Nat) - tagSize : Int).toNat =
      1 + ivSize + (stream.unread.length - ivSize - tagSize) := by
    omega
  have hcipherOffset : (1 + ivSize : Int).toNat = 1 + ivSize := rfl
  dsimp only
  rw [htagOffset, hcipherOffset, Int.toNat_one, min_eq_left (Nat.sub_le _ _),
    Nat.sub_sub_self htag]
  cases aes.handle peerId with
  | none => rfl
  | some key =>
    dsimp only
    cases gcm.decrypt key ((stream.bytes.drop 1).take ivSize)
        ((stream.bytes.drop (1 + ivSize)).take (stream.unread.length - ivSize - tagSize))
        ((stream.bytes.drop (1 + ivSize + (stream.unread.length - ivSize - tagSize))).take
          tagSize) with
    | none => rfl
    | some plain => rfl

/-- For every stream, whatever the keys and the scheme. -/
theorem handled_iff (gcm : Scheme tagSize) (aes : AESWindows) (stream : IByteStream)
    (peerId : UInt64) :
    Handled gcm aes stream peerId ↔ stream.unread = [] ∨ LongEnough stream := by
  by_cases hne : stream.unread = []
  · have hreceive : Bounds.onReceive gcm aes stream peerId = some (.ok stream, aes) := if_pos hne
    exact iff_of_true ⟨by rw [hreceive]; rfl, fun h => absurd hne h⟩ (.inl hne)
  constructor
  · rintro ⟨hdefined, hexact⟩
    obtain ⟨hiv, htag⟩ := ranges_of_defined hne hdefined
    have hfits := (cipherSize_exact_iff _).mp (hexact hne)
    rw [dataLeft_of_le hiv] at hfits
    refine .inr ⟨fun hconsumed => ?_, hiv, hfits⟩
    -- without the id, the tag ends after the last byte
    have hend := htag.2
    have hlength := length_bytes stream
    rw [hconsumed, List.length_nil] at hlength
    simp only [Bounds.tagRange, dataLeft_of_le hiv] at hend
    omega
  · rintro (hnil | hlong)
    · exact absurd hnil hne
    · refine ⟨?_, fun _ => ?_⟩
      · rw [onReceive_of_longEnough gcm aes peerId hne hlong]
        rfl
      · rw [cipherSize_exact_iff, dataLeft_of_le hlong.2.1]
        exact hlong.2.2

/-- One byte after the id of an encrypted packet. -/
theorem short_packet_wraps : ¬ ∀ (gcm : Scheme tagSize) (aes : AESWindows) (stream : IByteStream)
    (peerId : UInt64), Handled gcm aes stream peerId := by
  intro h
  have hhandled := h zeroKeyGcm established ⟨[MessageIDTypes.idEncrypted.toByte], [0], true⟩ 5
  exact absurd hhandled.defined (by decide)

end Stormancer.Packets
