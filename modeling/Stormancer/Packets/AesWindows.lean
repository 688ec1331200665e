import Mathlib.Data.UInt
import Stormancer.Lib.Aead
import Stormancer.Lib.Run
import Stormancer.Lib.Slots

/-!
# `AESWindows` and `KeyStore`

The AES object of the client and the store of its keys, both shared by all connections. The
AES-GCM functions of the platform are a parameter: a scheme with tags of 12 bytes. A key handle
is the key that it was generated from; `none` is the null handle. What the platform reports for
a null handle and for a tag that does not fit is its documented status.

Results:
1. `decrypt_latest_iff`: after every run, the packets that are encrypted under the latest key of
   a connection id decrypt to their plaintexts exactly when the first encryption for the id came
   after a registration and before every decryption, and the first key registered for the id
   encrypts as the latest one does.
2. `first_key_stays`: once initialised, the first key registered for an id stays in use.
3. `poisoned_of_decrypt`: without such an encryption every decryption fails.
4. `receive_before_send_fails`: the run in which a packet arrives before one was sent.
-/

namespace Stormancer.Packets

open Aead

/-! ## The code -/

structure AESWindows where
  /-- `KeyStore::keys`. -/
  keys : Slots.Table UInt64 Bytes
  /-- `_keyHandles`. -/
  keyHandles : Slots.Table UInt64 (Option Bytes)

namespace AESWindows

/-- `tagSize`. -/
abbrev tagSize : Nat := 12

/-- `IAES::ivSize()`, 96 bits. -/
abbrev ivSize : Nat := 12

def initial : AESWindows := ⟨∅, ∅⟩

/-- `KeyStore::getKey`. -/
def getKey (s : AESWindows) (keyId : UInt64) : Except String Bytes :=
  match s.keys.lookup keyId with
  | some key => .ok key
  | none => .error "Key not found"

/-- The registration of a key in `Client::ensureConnectedToServer`. `emplace` keeps an entry
that is there already. -/
def registerKey (s : AESWindows) (keyId : UInt64) (key : Bytes) : Except String AESWindows :=
  if key.length ≠ 32 then
    .error s!"Unexpected key size. received {key.length * 8} bits expected 256 bits "
  else if (s.keys.lookup keyId).isSome then .ok s
  else .ok { s with keys := s.keys.insert keyId key }

/-- `initAES`. -/
def initAES (s : AESWindows) (keyId : UInt64) : Except String AESWindows :=
  if (s.keyHandles.lookup keyId).isSome then .ok s
  else
    match s.getKey keyId with
    | .ok key => .ok { s with keyHandles := s.keyHandles.insert keyId (some key) }
    | .error text => .error text

/-- `_keyHandles[keyId]`: a missing entry is made, with the null handle. -/
def handleEntry (s : AESWindows) (keyId : UInt64) : AESWindows :=
  if (s.keyHandles.lookup keyId).isSome then s
  else { s with keyHandles := s.keyHandles.insert keyId none }

/-- The handle that `_keyHandles[keyId]` reads. -/
def handle (s : AESWindows) (keyId : UInt64) : Option Bytes :=
  (s.keyHandles.lookup keyId).join

variable (gcm : Scheme tagSize)

/-- `AESWindows::encrypt`: the bytes written to the output stream. -/
def encrypt (s : AESWindows) (data iv : Bytes) (keyId : UInt64) :
    Except String Bytes × AESWindows :=
  match s.initAES keyId with
  | .error text => (.error text, s)
  | .ok s =>
    match s.handle keyId with
    | none => (.error "Error STATUS_INVALID_HANDLE (0xc0000008) returned by BCryptEncrypt", s)
    | some key => (.ok (gcm.sealed key iv data), s)

/-- `AESWindows::decrypt`, for the data after the IV, of which the tag is a part. -/
def decrypt (s : AESWindows) (data iv : Bytes) (keyId : UInt64) :
    Except String Bytes × AESWindows :=
  (match s.handle keyId with
    | none => .error "Error STATUS_INVALID_HANDLE (0xc0000008) returned by BCryptDecrypt"
    | some key =>
      match gcm.openBody key iv data with
      | none => .error "Error STATUS_AUTH_TAG_MISMATCH (0xc000a002) returned by BCryptDecrypt"
      | some plain => .ok plain,
  s.handleEntry keyId)

/-! ## Runs -/

inductive Action
  | registerKey (keyId : UInt64) (key : Bytes)
  | encrypt (keyId : UInt64) (iv data : Bytes)
  | decrypt (keyId : UInt64) (iv data : Bytes)
deriving DecidableEq

/-- One call. A registration that throws leaves the store as it was. What a decryption of less
data than a tag does is undefined. -/
def step (s : AESWindows) : Action → Option AESWindows
  | .registerKey keyId key =>
    match s.registerKey keyId key with
    | .ok s' => some s'
    | .error _ => some s
  | .encrypt keyId iv data => some (s.encrypt gcm data iv keyId).2
  | .decrypt keyId iv data =>
    if tagSize ≤ data.length then some (s.decrypt gcm data iv keyId).2 else none

/-- The key that the call registers for the id. -/
def Action.registered (keyId : UInt64) : Action → Option Bytes
  | .registerKey id key => if id = keyId ∧ key.length = 32 then some key else none
  | _ => none

def Action.decrypts (keyId : UInt64) : Action → Bool
  | .decrypt id _ _ => id == keyId
  | _ => false

def Action.encrypts (keyId : UInt64) : Action → Bool
  | .encrypt id _ _ => id == keyId
  | _ => false

/-- The first key registered for the id. -/
def firstKey (keyId : UInt64) (as : List Action) : Option Bytes :=
  as.findSome? (·.registered keyId)

/-- The latest key registered for the id. -/
def latestKey (keyId : UInt64) (as : List Action) : Option Bytes :=
  as.reverse.findSome? (·.registered keyId)

/-- Some encryption for the id came after a registration and before every decryption. -/
def EncryptedFirst (keyId : UInt64) (as : List Action) : Prop :=
  ∃ before a after, as = before ++ a :: after ∧ a.encrypts keyId = true ∧
    (firstKey keyId before).isSome ∧ ∀ b ∈ before, b.decrypts keyId = false

/-- After the calls `as`, what is encrypted under the latest key of the id decrypts to the
plaintext. -/
def DecryptsLatest (as : List Action) (s : AESWindows) (keyId : UInt64) : Prop :=
  ∀ key, latestKey keyId as = some key →
    ∀ iv plain, (s.decrypt gcm (gcm.body key iv plain) iv keyId).1 = .ok plain

/-! ## Lemmas -/

namespace AESWindowsLemmas

variable {keyId : UInt64}

theorem firstKey_snoc (as : List Action) (a : Action) :
    firstKey keyId (as ++ [a]) = (firstKey keyId as).or (a.registered keyId) := by
  unfold firstKey
  rw [List.findSome?_append]
  cases h : a.registered keyId <;> simp [h]

/-- The new call either encrypts first or the calls before did. -/
theorem encryptedFirst_snoc {as : List Action} {a : Action} :
    EncryptedFirst keyId (as ++ [a]) ↔ EncryptedFirst keyId as ∨
      (a.encrypts keyId = true ∧ (firstKey keyId as).isSome ∧
        ∀ b ∈ as, b.decrypts keyId = false) := by
  constructor
  · rintro ⟨before, b, after, heq, henc, hkey, hdec⟩
    rcases List.eq_nil_or_concat after with rfl | ⟨after, c, rfl⟩
    · obtain ⟨rfl, hlast⟩ := List.append_inj' heq rfl
      cases hlast
      exact .inr ⟨henc, hkey, hdec⟩
    · rw [List.concat_eq_append, ← List.cons_append, ← List.append_assoc] at heq
      obtain ⟨rfl, -⟩ := List.append_inj' heq rfl
      exact .inl ⟨before, b, after, rfl, henc, hkey, hdec⟩
  · rintro (⟨before, b, after, rfl, henc, hkey, hdec⟩ | ⟨henc, hkey, hdec⟩)
    · exact ⟨before, b, after ++ [a], by simp, henc, hkey, hdec⟩
    · exact ⟨as, a, [], rfl, henc, hkey, hdec⟩

/-- The entry of `_keyHandles` that the history leads to. -/
def Leads (as : List Action) (keyId : UInt64) : Option (Option Bytes) → Prop
  | none => ¬ EncryptedFirst keyId as ∧ ∀ a ∈ as, a.decrypts keyId = false
  | some none => ¬ EncryptedFirst keyId as ∧ ∃ a ∈ as, a.decrypts keyId = true
  | some (some key) => EncryptedFirst keyId as ∧ firstKey keyId as = some key

/-- What the history says about the entries of an id. -/
structure Agrees (as : List Action) (s : AESWindows) (keyId : UInt64) : Prop where
  keys : s.keys.lookup keyId = firstKey keyId as
  handles : Leads as keyId (s.keyHandles.lookup keyId)

theorem agrees_initial : Agrees [] initial keyId where
  keys := rfl
  handles := by
    refine ⟨?_, fun a ha => nomatch ha⟩
    rintro ⟨before, a, after, heq, -⟩
    simp at heq

/-- A call that neither registers a key for the id nor uses its handle changes nothing. -/
theorem leads_snoc_other {as : List Action} {a : Action} {entry : Option (Option Bytes)}
    (h : Leads as keyId entry) (henc : a.encrypts keyId = false) (hdec : a.decrypts keyId = false) :
    Leads (as ++ [a]) keyId entry := by
  have hfirst : EncryptedFirst keyId (as ++ [a]) ↔ EncryptedFirst keyId as := by
    rw [encryptedFirst_snoc, henc]
    simp
  match entry with
  | none =>
    obtain ⟨hnot, hall⟩ := h
    refine ⟨hfirst.not.mpr hnot, ?_⟩
    intro b hb
    rcases List.mem_append.mp hb with hb | hb
    · exact hall b hb
    · rw [List.mem_singleton.mp hb, hdec]
  | some none =>
    obtain ⟨hnot, b, hb, hdecb⟩ := h
    exact ⟨hfirst.not.mpr hnot, b, List.mem_append_left _ hb, hdecb⟩
  | some (some key) =>
    obtain ⟨hyes, hkey⟩ := h
    refine ⟨hfirst.mpr hyes, ?_⟩
    rw [firstKey_snoc, hkey, Option.some_or]

theorem agrees_registerKey {as : List Action} {s : AESWindows} (h : Agrees as s keyId)
    (id : UInt64) (key : Bytes) {s' : AESWindows}
    (hs : step gcm s (.registerKey id key) = some s') :
    Agrees (as ++ [.registerKey id key]) s' keyId := by
  have hhandles : s'.keyHandles = s.keyHandles := by
    simp only [step, registerKey] at hs
    split at hs
    · next hok =>
      cases hs
      split at hok
      · cases hok
      · split at hok <;> cases hok <;> rfl
    · cases hs
      rfl
  constructor
  · rw [firstKey_snoc, ← h.keys]
    simp only [step, registerKey, Action.registered] at hs ⊢
    by_cases hlen : key.length = 32
    · by_cases hsome : (s.keys.lookup id).isSome
      · simp only [hlen, hsome, ne_eq, not_true_eq_false, if_false, if_true] at hs
        cases hs
        by_cases hid : id = keyId
        · subst hid
          obtain ⟨k, hk⟩ := Option.isSome_iff_exists.mp hsome
          simp [hk]
        · simp [hid]
      · simp only [hlen, hsome, ne_eq, not_true_eq_false, if_false, Bool.false_eq_true] at hs
        cases hs
        rw [Slots.Table.lookup_insert_eq]
        by_cases hid : id = keyId
        · subst hid
          rw [Option.not_isSome_iff_eq_none.mp hsome]
          simp [hlen]
        · simp [hid, Ne.symm hid]
    · simp only [hlen, ne_eq, not_false_eq_true, if_true] at hs
      cases hs
      simp [hlen]
  · rw [hhandles]
    exact leads_snoc_other h.handles rfl rfl

/-- What an encryption does to the handles. -/
theorem encrypt_cases (s : AESWindows) (id : UInt64) (iv data : Bytes) :
    ((s.keyHandles.lookup id).isSome ∧ (s.encrypt gcm data iv id).2 = s) ∨
    (s.keyHandles.lookup id = none ∧ s.keys.lookup id = none ∧
      (s.encrypt gcm data iv id).2 = s) ∨
    ∃ key, s.keyHandles.lookup id = none ∧ s.keys.lookup id = some key ∧
      (s.encrypt gcm data iv id).2 =
        { s with keyHandles := s.keyHandles.insert id (some key) } := by
  have state : (s.encrypt gcm data iv id).2 =
      (match s.initAES id with | .ok s' => s' | .error _ => s) := by
    unfold encrypt
    split
    · next text herr => rw [herr]
    · next s' hok =>
      rw [hok]
      dsimp only
      split <;> rfl
  rw [state]
  unfold initAES getKey
  cases hhandle : s.keyHandles.lookup id with
  | some entry => exact .inl ⟨rfl, rfl⟩
  | none =>
    cases hkey : s.keys.lookup id with
    | none => exact .inr (.inl ⟨rfl, rfl, rfl⟩)
    | some key => exact .inr (.inr ⟨key, rfl, rfl, rfl⟩)

theorem agrees_encrypt {as : List Action} {s : AESWindows} (h : Agrees as s keyId)
    (id : UInt64) (iv data : Bytes) :
    Agrees (as ++ [.encrypt id iv data]) (s.encrypt gcm data iv id).2 keyId := by
  have hfirst : firstKey keyId (as ++ [.encrypt id iv data]) = firstKey keyId as := by
    rw [firstKey_snoc]
    exact Option.or_none
  by_cases hid : id = keyId
  · subst hid
    have henc : (Action.encrypt id iv data).encrypts id = true := beq_self_eq_true id
    rcases encrypt_cases gcm s id iv data with ⟨hsome, hs⟩ | ⟨hnone, hkey, hs⟩ |
      ⟨key, hnone, hkey, hs⟩
    · rw [hs]
      refine ⟨h.keys.trans hfirst.symm, ?_⟩
      have hleads := h.handles
      cases hentry : s.keyHandles.lookup id with
      | none => rw [hentry] at hsome; cases hsome
      | some entry =>
        rw [hentry] at hleads
        cases entry with
        | none =>
          obtain ⟨hnot, b, hb, hdec⟩ := hleads
          refine ⟨?_, b, List.mem_append_left _ hb, hdec⟩
          rw [encryptedFirst_snoc]
          rintro (hyes | ⟨-, -, hall⟩)
          · exact hnot hyes
          · rw [hall b hb] at hdec
            cases hdec
        | some key => exact ⟨encryptedFirst_snoc.mpr (.inl hleads.1), hfirst.trans hleads.2⟩
    · rw [hs]
      refine ⟨h.keys.trans hfirst.symm, ?_⟩
      have hleads := h.handles
      rw [hnone] at hleads ⊢
      obtain ⟨hnot, hall⟩ := hleads
      constructor
      · rw [encryptedFirst_snoc, ← h.keys, hkey]
        simpa using hnot
      · intro b hb
        rcases List.mem_append.mp hb with hb | hb
        · exact hall b hb
        · rw [List.mem_singleton.mp hb]
          rfl
    · rw [hs]
      refine ⟨h.keys.trans hfirst.symm, ?_⟩
      have hleads := h.handles
      rw [hnone] at hleads
      dsimp only
      rw [Slots.Table.lookup_insert_eq, if_pos rfl]
      have hkey' := h.keys.symm.trans hkey
      exact ⟨encryptedFirst_snoc.mpr (.inr ⟨henc, by rw [hkey']; rfl, hleads.2⟩),
        hfirst.trans hkey'⟩
  · have hother := leads_snoc_other (a := .encrypt id iv data) h.handles
      (by simpa [Action.encrypts] using hid) rfl
    rcases encrypt_cases gcm s id iv data with ⟨-, hs⟩ | ⟨-, -, hs⟩ | ⟨key, -, -, hs⟩
    · rw [hs]
      exact ⟨h.keys.trans hfirst.symm, hother⟩
    · rw [hs]
      exact ⟨h.keys.trans hfirst.symm, hother⟩
    · rw [hs]
      refine ⟨h.keys.trans hfirst.symm, ?_⟩
      dsimp only
      rw [Slots.Table.lookup_insert_eq, if_neg (Ne.symm hid)]
      exact hother

theorem agrees_decrypt {as : List Action} {s : AESWindows} (h : Agrees as s keyId)
    (id : UInt64) (iv data : Bytes) :
    Agrees (as ++ [.decrypt id iv data]) (s.decrypt gcm data iv id).2 keyId := by
  have hfirst : firstKey keyId (as ++ [.decrypt id iv data]) = firstKey keyId as := by
    rw [firstKey_snoc]
    exact Option.or_none
  have hkeys : (s.handleEntry id).keys = s.keys := by
    unfold handleEntry
    split <;> rfl
  have hnot : EncryptedFirst keyId (as ++ [.decrypt id iv data]) ↔ EncryptedFirst keyId as := by
    rw [encryptedFirst_snoc]
    simp [Action.encrypts]
  rw [show (s.decrypt gcm data iv id).2 = s.handleEntry id from rfl]
  refine ⟨by rw [hkeys, h.keys, hfirst], ?_⟩
  have hleads := h.handles
  by_cases hid : id = keyId
  · subst hid
    unfold handleEntry
    cases hentry : s.keyHandles.lookup id with
    | none =>
      rw [hentry] at hleads
      dsimp only [Option.isSome_none]
      rw [if_neg (by decide), Slots.Table.lookup_insert_eq, if_pos rfl]
      exact ⟨hnot.not.mpr hleads.1, _, List.mem_append_right _ (List.mem_singleton_self _),
        beq_self_eq_true id⟩
    | some entry =>
      rw [hentry] at hleads
      dsimp only [Option.isSome_some]
      rw [if_pos rfl, hentry]
      cases entry with
      | none =>
        obtain ⟨hne, b, hb, hdec⟩ := hleads
        exact ⟨hnot.not.mpr hne, b, List.mem_append_left _ hb, hdec⟩
      | some key => exact ⟨hnot.mpr hleads.1, hfirst.trans hleads.2⟩
  · have hsame : (s.handleEntry id).keyHandles.lookup keyId = s.keyHandles.lookup keyId := by
      unfold handleEntry
      split
      · rfl
      · exact (Slots.Table.lookup_insert_eq _ _ _ _).trans (if_neg (Ne.symm hid))
    rw [hsame]
    exact leads_snoc_other h.handles rfl (by simpa [Action.decrypts] using hid)

/-- The tables of a state agree with the history that led to it. -/
theorem agrees_of_run {as : List Action} {s : AESWindows}
    (h : Lts.Run (step gcm) Lts.anyStep initial as s) (keyId : UInt64) : Agrees as s keyId := by
  induction h with
  | nil => exact agrees_initial
  | @snoc as a s s' _ _ hs ih =>
    cases a with
    | registerKey id key => exact agrees_registerKey gcm ih id key hs
    | encrypt id iv data =>
      cases hs
      exact agrees_encrypt gcm ih id iv data
    | decrypt id iv data =>
      simp only [step] at hs
      split at hs
      · cases hs
        exact agrees_decrypt gcm ih id iv data
      · cases hs

/-- The key that a decryption uses is the first one, if an encryption came first. -/
theorem handle_eq_some {as : List Action} {s : AESWindows} (h : Agrees as s keyId) {key : Bytes} :
    s.handle keyId = some key ↔ EncryptedFirst keyId as ∧ firstKey keyId as = some key := by
  have hleads := h.handles
  unfold handle
  cases hentry : s.keyHandles.lookup keyId with
  | none =>
    rw [hentry] at hleads
    simp [hleads.1]
  | some entry =>
    rw [hentry] at hleads
    cases entry with
    | none => simp [hleads.1]
    | some key' =>
      obtain ⟨hyes, hkey⟩ := hleads
      simp [hyes, hkey]

theorem decrypt_eq_ok {s : AESWindows} {plain iv data : Bytes} :
    (s.decrypt gcm data iv keyId).1 = .ok plain ↔
      ∃ key, s.handle keyId = some key ∧ gcm.openBody key iv data = some plain := by
  unfold decrypt
  cases s.handle keyId with
  | none => simp
  | some key =>
    cases hopen : gcm.openBody key iv data with
    | none => simp [hopen]
    | some p => simp [hopen]

end AESWindowsLemmas

open AESWindowsLemmas

/-! ## Main results -/

/-- Whether the packets that are encrypted under the latest key of an id decrypt to their
plaintexts depends on the history only: some encryption for the id came after a registration
and before every decryption, and the first key encrypts as the latest one does. -/
theorem decrypt_latest_iff {as : List Action} {s : AESWindows}
    (h : Lts.Run (step gcm) Lts.anyStep initial as s) (keyId : UInt64) :
    DecryptsLatest gcm as s keyId ↔
      ∀ key, latestKey keyId as = some key → EncryptedFirst keyId as ∧
        ∃ first, firstKey keyId as = some first ∧ gcm.encrypt first = gcm.encrypt key := by
  have hagrees := agrees_of_run gcm h keyId
  constructor
  · intro hall key hlatest
    obtain ⟨first, hhandle, -⟩ := (decrypt_eq_ok gcm).mp (hall key hlatest [] [])
    obtain ⟨hyes, hfirst⟩ := (handle_eq_some hagrees).mp hhandle
    refine ⟨hyes, first, hfirst, ?_⟩
    funext iv plain
    obtain ⟨first', hhandle', hopen⟩ := (decrypt_eq_ok gcm).mp (hall key hlatest iv plain)
    cases hhandle.symm.trans hhandle'
    exact (gcm.encrypt_eq_of_body_eq rfl (gcm.openBody_eq_some.mp hopen)).symm
  · intro hcond key hlatest iv plain
    obtain ⟨hyes, first, hfirst, hsame⟩ := hcond key hlatest
    refine (decrypt_eq_ok gcm).mpr ⟨first, (handle_eq_some hagrees).mpr ⟨hyes, hfirst⟩, ?_⟩
    rw [gcm.openBody_eq_some]
    unfold Scheme.body
    rw [hsame]

/-- After a reconnection the packets under the first key still decrypt, whatever key was
registered since. -/
theorem first_key_stays {as : List Action} {s : AESWindows}
    (h : Lts.Run (step gcm) Lts.anyStep initial as s) {keyId : UInt64} {first : Bytes}
    (hyes : EncryptedFirst keyId as) (hfirst : firstKey keyId as = some first) (iv plain : Bytes) :
    (s.decrypt gcm (gcm.body first iv plain) iv keyId).1 = .ok plain := by
  have hagrees := agrees_of_run gcm h keyId
  exact (decrypt_eq_ok gcm).mpr
    ⟨first, (handle_eq_some hagrees).mpr ⟨hyes, hfirst⟩, gcm.openBody_eq_some.mpr rfl⟩

/-- A decryption before the first encryption for its id makes the null handle, with which every
later decryption fails. -/
theorem poisoned_of_decrypt {as : List Action} {s : AESWindows}
    (h : Lts.Run (step gcm) Lts.anyStep initial as s) {keyId : UInt64}
    (hnot : ¬ EncryptedFirst keyId as) (iv data : Bytes) :
    (s.decrypt gcm data iv keyId).1 =
      .error "Error STATUS_INVALID_HANDLE (0xc0000008) returned by BCryptDecrypt" := by
  have hagrees := agrees_of_run gcm h keyId
  unfold decrypt
  cases hhandle : s.handle keyId with
  | none => rfl
  | some key => exact absurd ((handle_eq_some hagrees).mp hhandle).1 hnot

/-! ### A known answer of AES-256-GCM -/

/-- The key and the nonce of zeros, and the plaintext of the byte 141. -/
def zeroKeyAnswer : Scheme.KnownAnswer tagSize where
  key := List.replicate 32 0
  nonce := List.replicate ivSize 0
  plain := [141]
  cipher := [67]
  tag := [34, 109, 133, 31, 192, 46, 141, 113, 10, 153, 127, 118]
  cipher_length := rfl
  tag_length := rfl
  tag_ne := by decide

/-- AES-GCM on the packets below. -/
def zeroKeyGcm : Scheme tagSize := Scheme.knownAnswer zeroKeyAnswer

/-- A key is registered for the connection 5 and a first packet is sent to it. -/
def sendFirst : List Action :=
  [.registerKey 5 (List.replicate 32 0), .encrypt 5 (List.replicate ivSize 0) [141]]

theorem decrypt_latest_after_send : ∃ s,
    Lts.Run (step zeroKeyGcm) Lts.anyStep initial sendFirst s ∧
      DecryptsLatest zeroKeyGcm sendFirst s 5 := by
  obtain ⟨s, hs⟩ := Option.isSome_iff_exists.mp
    (show (Lts.exec (step zeroKeyGcm) Lts.anyStep initial sendFirst).isSome by decide)
  have hrun := Lts.Run.of_exec hs
  refine ⟨s, hrun, (decrypt_latest_iff zeroKeyGcm hrun 5).mpr ?_⟩
  rintro key hlatest
  have hkey : List.replicate 32 0 = key := Option.some.inj hlatest
  subst hkey
  exact ⟨⟨[_], _, [], rfl, rfl, rfl, by decide⟩, _, rfl, rfl⟩

/-- The first packet of a connection comes from the peer: the key is registered, and the packet
does not decrypt. -/
theorem receive_before_send_fails :
    ¬ ∀ (as : List Action) (s : AESWindows),
      Lts.Run (step zeroKeyGcm) Lts.anyStep initial as s → DecryptsLatest zeroKeyGcm as s 5 := by
  intro hclaim
  have hrun : Lts.Run (step zeroKeyGcm) Lts.anyStep initial
      [.registerKey 5 (List.replicate 32 0)] _ := Lts.Run.single trivial rfl
  have hok := hclaim _ _ hrun (List.replicate 32 0) rfl (List.replicate ivSize 0) [141]
  revert hok
  decide

end AESWindows
end Stormancer.Packets
