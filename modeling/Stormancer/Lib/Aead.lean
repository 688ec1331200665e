import Mathlib.Data.List.Basic

/-!
# Authenticated encryption with a detached tag

A scheme encrypts a plaintext under a key and a nonce to a ciphertext of the same length and a
tag of a fixed length. Decryption gives a plaintext exactly for what the encryption of that
plaintext under the same key and nonce produced.

A *body* is a ciphertext followed by its tag, a *sealed message* is the nonce followed by a body.

Results:
1. `openBody_eq_some`: opening succeeds exactly on the bodies of the key and nonce.
2. `openSealed_eq_some`: the same for sealed messages with a nonce of the expected length.
3. `knownAnswer`: a scheme that gives a prescribed answer, to show that the laws can be met.
-/

namespace Aead

abbrev Bytes := List UInt8

structure Scheme (tagLength : Nat) where
  encrypt (key nonce plain : Bytes) : Bytes × Bytes
  decrypt (key nonce cipher tag : Bytes) : Option Bytes
  cipher_length (key nonce plain : Bytes) : (encrypt key nonce plain).1.length = plain.length
  tag_length (key nonce plain : Bytes) : (encrypt key nonce plain).2.length = tagLength
  decrypt_eq_some (key nonce cipher tag plain : Bytes) :
    decrypt key nonce cipher tag = some plain ↔ encrypt key nonce plain = (cipher, tag)

namespace Scheme

variable {tagLength : Nat} (A : Scheme tagLength)

/-! ## Bodies and sealed messages -/

/-- The ciphertext followed by its tag. -/
def body (key nonce plain : Bytes) : Bytes :=
  (A.encrypt key nonce plain).1 ++ (A.encrypt key nonce plain).2

/-- The last bytes are the tag. -/
def openBody (key nonce data : Bytes) : Option Bytes :=
  A.decrypt key nonce (data.take (data.length - tagLength)) (data.drop (data.length - tagLength))

/-- The nonce followed by the body. -/
def sealed (key nonce plain : Bytes) : Bytes :=
  nonce ++ A.body key nonce plain

/-- The first bytes are the nonce. -/
def openSealed (nonceLength : Nat) (key data : Bytes) : Option Bytes :=
  A.openBody key (data.take nonceLength) (data.drop nonceLength)

theorem body_length (key nonce plain : Bytes) :
    (A.body key nonce plain).length = plain.length + tagLength := by
  unfold body
  rw [List.length_append, A.cipher_length, A.tag_length]

theorem sealed_length (key nonce plain : Bytes) :
    (A.sealed key nonce plain).length = nonce.length + (plain.length + tagLength) := by
  unfold sealed
  rw [List.length_append, A.body_length]

/-- Equal bodies of plaintexts of one length come from equal ciphertexts and tags. -/
theorem encrypt_eq_of_body_eq {key key' nonce nonce' plain plain' : Bytes}
    (hlen : plain.length = plain'.length)
    (h : A.body key nonce plain = A.body key' nonce' plain') :
    A.encrypt key nonce plain = A.encrypt key' nonce' plain' := by
  obtain ⟨hcipher, htag⟩ := List.append_inj h (by rw [A.cipher_length, A.cipher_length, hlen])
  exact Prod.ext hcipher htag

theorem openBody_eq_some {key nonce data plain : Bytes} :
    A.openBody key nonce data = some plain ↔ data = A.body key nonce plain := by
  unfold openBody
  rw [A.decrypt_eq_some]
  constructor
  · intro h
    unfold body
    rw [h, List.take_append_drop]
  · rintro rfl
    have hsplit : (A.body key nonce plain).length - tagLength =
        (A.encrypt key nonce plain).1.length := by
      rw [A.body_length, A.cipher_length, Nat.add_sub_cancel]
    rw [hsplit]
    unfold body
    rw [List.take_left, List.drop_left]

theorem openSealed_eq_some {nonceLength : Nat} {key data plain : Bytes}
    (hlen : nonceLength ≤ data.length) :
    A.openSealed nonceLength key data = some plain ↔
      ∃ nonce : Bytes, nonce.length = nonceLength ∧ data = A.sealed key nonce plain := by
  unfold openSealed
  rw [A.openBody_eq_some]
  constructor
  · intro h
    refine ⟨data.take nonceLength, List.length_take_of_le hlen, ?_⟩
    unfold sealed
    rw [← h, List.take_append_drop]
  · rintro ⟨nonce, rfl, rfl⟩
    unfold sealed
    rw [List.take_left, List.drop_left]

/-! ## A scheme with a prescribed answer -/

/-- A key, a nonce and a plaintext with the ciphertext and the tag that they give. -/
structure KnownAnswer (tagLength : Nat) where
  key : Bytes
  nonce : Bytes
  plain : Bytes
  cipher : Bytes
  tag : Bytes
  cipher_length : cipher.length = plain.length
  tag_length : tag.length = tagLength
  tag_ne : tag ≠ List.replicate tagLength 0

/-- Gives the prescribed answer; elsewhere the ciphertext is the plaintext and the tag is
zero. -/
def knownAnswer (v : KnownAnswer tagLength) : Scheme tagLength where
  encrypt key nonce plain :=
    if key = v.key ∧ nonce = v.nonce ∧ plain = v.plain then (v.cipher, v.tag)
    else (plain, List.replicate tagLength 0)
  decrypt key nonce cipher tag :=
    if key = v.key ∧ nonce = v.nonce ∧ cipher = v.cipher ∧ tag = v.tag then some v.plain
    else if key = v.key ∧ nonce = v.nonce ∧ cipher = v.plain then none
    else if tag = List.replicate tagLength 0 then some cipher
    else none
  cipher_length key nonce plain := by
    split
    · next h => rw [v.cipher_length, h.2.2]
    · rfl
  tag_length key nonce plain := by
    split
    · exact v.tag_length
    · exact List.length_replicate
  decrypt_eq_some key nonce cipher tag plain := by
    have htag := v.tag_ne
    grind

end Scheme
end Aead
