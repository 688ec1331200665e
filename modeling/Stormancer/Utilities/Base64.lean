import Stormancer.Utilities.StringSplit

/-!
# Base64

`to_base64` and `from_base64` of the vendored `cpprestsdk`. The bit fields of `_triple_byte` start at
the low bits of their byte. What is written to the result is the whole of it: its size is three bytes
for each four characters, less the padding.

Results:
1. `from_base64_eq_ok_iff`: the decoder takes exactly what the encoder makes, and gives back its
   bytes.
-/

namespace Stormancer.Base64

/-! ## The tables -/

/-- `_base64_enctbl`. -/
def encodeTable : List Char :=
  ['A', 'B', 'C', 'D', 'E', 'F', 'G', 'H', 'I', 'J', 'K', 'L', 'M', 'N', 'O', 'P',
    'Q', 'R', 'S', 'T', 'U', 'V', 'W', 'X', 'Y', 'Z', 'a', 'b', 'c', 'd', 'e', 'f',
    'g', 'h', 'i', 'j', 'k', 'l', 'm', 'n', 'o', 'p', 'q', 'r', 's', 't', 'u', 'v',
    'w', 'x', 'y', 'z', '0', '1', '2', '3', '4', '5', '6', '7', '8', '9', '+', '/']

/-- `_base64_dectbl`. -/
def decodeTable : List Nat :=
  [255, 255, 255, 255, 255, 255, 255, 255, 255, 255, 255, 255, 255, 255, 255, 255,
    255, 255, 255, 255, 255, 255, 255, 255, 255, 255, 255, 255, 255, 255, 255, 255,
    255, 255, 255, 255, 255, 255, 255, 255, 255, 255, 255, 62, 255, 255, 255, 63,
    52, 53, 54, 55, 56, 57, 58, 59, 60, 61, 255, 255, 255, 254, 255, 255,
    255, 0, 1, 2, 3, 4, 5, 6, 7, 8, 9, 10, 11, 12, 13, 14,
    15, 16, 17, 18, 19, 20, 21, 22, 23, 24, 25, 255, 255, 255, 255, 255,
    255, 26, 27, 28, 29, 30, 31, 32, 33, 34, 35, 36, 37, 38, 39, 40,
    41, 42, 43, 44, 45, 46, 47, 48, 49, 50, 51, 255, 255, 255, 255, 255]

def encodeDigit (index : Nat) : Char := encodeTable.getD index 'A'

/-- The entry of the character; it has none from 128 on. -/
def decodeDigit (c : Char) : Nat := decodeTable.getD c.toNat 255

/-! ## The code -/

/-- The four indices of `_triple_byte`. -/
def digits (a b c : UInt8) : List Nat :=
  [a.toNat / 4, a.toNat % 4 * 16 + b.toNat / 16, b.toNat % 16 * 4 + c.toNat / 64, c.toNat % 64]

/-- `_to_base64`. -/
def toBase64 : List UInt8 → Str
  | a :: b :: c :: rest => (digits a b c).map encodeDigit ++ toBase64 rest
  | [a, b] => ((digits a b 0).take 3).map encodeDigit ++ ['=']
  | [a] => ((digits a 0 0).take 2).map encodeDigit ++ ['=', '=']
  | [] => []

/-- The validation of `_from_base64`, from a character on: it fails, or counts the padding. -/
def validate : Str → Except String Nat
  | [] => .ok 0
  | c :: rest =>
    if decodeDigit c = 255 then .error "invalid character found in base64 string"
    else if decodeDigit c = 254 then
      if rest.length > 1 then .error "invalid padding character found in base64 string"
      else if rest.any fun c => decodeDigit c != 254 then
        .error "invalid padding character found in base64 string"
      else (validate rest).map (· + 1)
    else validate rest

/-- The bytes of four digits. -/
def tripleByte (val0 val1 val2 val3 : Nat) : List UInt8 :=
  [UInt8.ofNat (val0 * 4 + val1 / 16), UInt8.ofNat (val1 % 16 * 16 + val2 / 4),
    UInt8.ofNat (val2 % 4 * 64 + val3)]

/-- The last four characters. -/
def decodeLast (val0 val1 val2 val3 : Nat) : Except String (List UInt8) :=
  if val2 = 254 then
    if val1 % 16 ≠ 0 then .error "Invalid end of base64 string"
    else .ok ((tripleByte val0 val1 0 0).take 1)
  else if val3 = 254 then
    if val2 % 4 ≠ 0 then .error "Invalid end of base64 string"
    else .ok ((tripleByte val0 val1 val2 0).take 2)
  else .ok (tripleByte val0 val1 val2 val3)

/-- The loop over the characters, four at a time. -/
def decodeLoop : Str → Except String (List UInt8)
  | [c0, c1, c2, c3] =>
    decodeLast (decodeDigit c0) (decodeDigit c1) (decodeDigit c2) (decodeDigit c3)
  | c0 :: c1 :: c2 :: c3 :: rest =>
    (decodeLoop rest).map
      (tripleByte (decodeDigit c0) (decodeDigit c1) (decodeDigit c2) (decodeDigit c3) ++ ·)
  | _ => .ok []

/-- `_from_base64`. -/
def fromBase64 (input : Str) : Except String (List UInt8) :=
  if input = [] then .ok []
  else if input.length % 4 ≠ 0 then
    .error "length of base64 string is not an even multiple of 4"
  else
    match validate input with
    | .error what => .error what
    | .ok _ => decodeLoop input

namespace Base64Lemmas

/-! ## The cases of the loops -/

theorem toBase64_cons (a b c : UInt8) (rest : List UInt8) :
    toBase64 (a :: b :: c :: rest) = (digits a b c).map encodeDigit ++ toBase64 rest := rfl

theorem toBase64_two (a b : UInt8) :
    toBase64 [a, b] = ((digits a b 0).take 3).map encodeDigit ++ ['='] := rfl

theorem toBase64_one (a : UInt8) :
    toBase64 [a] = ((digits a 0 0).take 2).map encodeDigit ++ ['=', '='] := rfl

theorem toBase64_nil : toBase64 [] = [] := rfl

theorem decodeLoop_last (c0 c1 c2 c3 : Char) : decodeLoop [c0, c1, c2, c3] =
    decodeLast (decodeDigit c0) (decodeDigit c1) (decodeDigit c2) (decodeDigit c3) := rfl

theorem decodeLoop_cons (c0 c1 c2 c3 : Char) {rest : Str} (hne : rest ≠ []) :
    decodeLoop (c0 :: c1 :: c2 :: c3 :: rest) = (decodeLoop rest).map
      (tripleByte (decodeDigit c0) (decodeDigit c1) (decodeDigit c2) (decodeDigit c3) ++ ·) := by
  cases rest with
  | nil => exact absurd rfl hne
  | cons c rest => rfl

/-! ## Digits -/

def IsDigit (c : Char) : Prop := decodeDigit c < 64

theorem map_decode_encodeTable : encodeTable.map decodeDigit = List.range 64 := by decide +kernel

theorem decode_encode {i : Nat} (h : i < 64) : decodeDigit (encodeDigit i) = i := by
  have hlt : i < encodeTable.length := h
  have hentry := congrArg (·[i]?) map_decode_encodeTable
  rw [List.getElem?_map, List.getElem?_eq_getElem hlt, List.getElem?_range h] at hentry
  rw [encodeDigit, List.getD_eq_getElem?_getD, List.getElem?_eq_getElem hlt]
  exact Option.some.inj hentry

theorem isDigit_encode {i : Nat} (h : i < 64) : IsDigit (encodeDigit i) := by
  unfold IsDigit
  rwa [decode_encode h]

/-- What holds of the entries of the table holds of the digits of all characters. -/
theorem of_table {P : Nat → Nat → Prop} (h : ∀ entry ∈ decodeTable.zipIdx, P entry.2 entry.1)
    (hover : ∀ n, P n 255) (c : Char) : P c.toNat (decodeDigit c) := by
  unfold decodeDigit
  rw [List.getD_eq_getElem?_getD]
  cases hentry : decodeTable[c.toNat]? with
  | none => exact hover _
  | some v => exact h (v, c.toNat) (List.mem_zipIdx_iff_getElem?.mpr hentry)

theorem encode_decode {c : Char} (h : IsDigit c) : encodeDigit (decodeDigit c) = c := by
  have hcode := of_table (P := fun n v => v < 64 → (encodeDigit v).toNat = n) (by decide +kernel)
    (fun _ h => absurd h (by decide)) c h
  exact Char.toNat_inj.mp hcode

theorem decode_cases (c : Char) : IsDigit c ∨ c = '=' ∨ decodeDigit c = 255 := by
  have hcode := of_table (P := fun n v => v < 64 ∨ n = '='.toNat ∨ v = 255) (by decide +kernel)
    (fun _ => .inr (.inr rfl)) c
  exact hcode.imp_right (.imp_left Char.toNat_inj.mp)

theorem decode_padding : decodeDigit '=' = 254 := by decide

theorem not_isDigit_padding : ¬ IsDigit '=' := by
  unfold IsDigit
  rw [decode_padding]
  decide

/-! ## The validation -/

theorem validate_cons_digit {c : Char} (h : IsDigit c) (rest : Str) :
    validate (c :: rest) = validate rest := by
  unfold IsDigit at h
  exact (if_neg (by omega)).trans (if_neg (by omega))

theorem validate_cons_padding (rest : Str) : validate ('=' :: rest) =
    if rest.length > 1 then .error "invalid padding character found in base64 string"
    else if rest.any fun c => decodeDigit c != 254 then
      .error "invalid padding character found in base64 string"
    else (validate rest).map (· + 1) :=
  (if_neg (by rw [decode_padding]; decide)).trans (if_pos decode_padding)

theorem validate_cons_invalid {c : Char} (h : decodeDigit c = 255) (rest : Str) :
    validate (c :: rest) = .error "invalid character found in base64 string" :=
  if_pos h

/-- A character in front of two others at least is a digit. -/
theorem validate_cons {c : Char} {s : Str} (hlong : 1 < s.length) {n : Nat} :
    validate (c :: s) = .ok n ↔ IsDigit c ∧ validate s = .ok n := by
  rcases decode_cases c with h | rfl | h
  · rw [validate_cons_digit h]
    exact ⟨fun hok => ⟨h, hok⟩, And.right⟩
  · rw [validate_cons_padding, if_pos hlong]
    exact ⟨nofun, fun hboth => absurd hboth.1 not_isDigit_padding⟩
  · rw [validate_cons_invalid h]
    refine ⟨nofun, fun hboth => ?_⟩
    have hdigit := hboth.1
    unfold IsDigit at hdigit
    omega

theorem validate_last (c : Char) : (∃ n, validate [c] = .ok n) ↔ IsDigit c ∨ c = '=' := by
  rcases decode_cases c with h | rfl | h
  · rw [validate_cons_digit h]
    exact ⟨fun _ => .inl h, fun _ => ⟨0, rfl⟩⟩
  · exact ⟨fun _ => .inr rfl, fun _ => ⟨1, by decide⟩⟩
  · rw [validate_cons_invalid h]
    refine ⟨(fun ⟨_, hok⟩ => nomatch hok), ?_⟩
    rintro (hdigit | rfl)
    · unfold IsDigit at hdigit
      omega
    · exact absurd h (by decide)

/-- The last two characters are two digits, one digit, or none. -/
theorem validate_pair (c c' : Char) : (∃ n, validate [c, c'] = .ok n) ↔
    IsDigit c ∧ (IsDigit c' ∨ c' = '=') ∨ c = '=' ∧ c' = '=' := by
  rcases decode_cases c with h | rfl | h
  · rw [validate_cons_digit h, validate_last]
    refine ⟨fun hlast => .inl ⟨h, hlast⟩, ?_⟩
    rintro (⟨-, hlast⟩ | ⟨rfl, -⟩)
    · exact hlast
    · exact absurd h not_isDigit_padding
  · rw [validate_cons_padding, if_neg (by simp)]
    by_cases hc : decodeDigit c' = 254
    · have hpadding : c' = '=' := by
        rcases decode_cases c' with h | h | h
        · unfold IsDigit at h
          omega
        · exact h
        · omega
      subst hpadding
      exact ⟨fun _ => .inr ⟨rfl, rfl⟩, fun _ => ⟨2, by decide⟩⟩
    · rw [if_pos (by simpa using hc)]
      refine ⟨(fun ⟨_, hok⟩ => nomatch hok), ?_⟩
      rintro (⟨hdigit, -⟩ | ⟨-, rfl⟩)
      · exact absurd hdigit not_isDigit_padding
      · exact absurd decode_padding hc
  · rw [validate_cons_invalid h]
    refine ⟨(fun ⟨_, hok⟩ => nomatch hok), ?_⟩
    rintro (⟨hdigit, -⟩ | ⟨rfl, -⟩)
    · unfold IsDigit at hdigit
      omega
    · exact absurd h (by decide)

/-! ## Groups -/

theorem digits_lt (a b c : UInt8) : ∀ d ∈ digits a b c, d < 64 := by
  have ha := a.toNat_lt
  have hb := b.toNat_lt
  have hc := c.toNat_lt
  unfold digits
  simp only [List.forall_mem_cons, List.not_mem_nil, false_implies, implies_true, and_true]
  omega

/-- The bytes of the digits of three bytes. -/
theorem tripleByte_digits (a b c : UInt8) :
    tripleByte (a.toNat / 4) (a.toNat % 4 * 16 + b.toNat / 16) (b.toNat % 16 * 4 + c.toNat / 64)
      (c.toNat % 64) = [a, b, c] := by
  have ha := a.toNat_lt
  have hb := b.toNat_lt
  have hc := c.toNat_lt
  have hbyte : ∀ {x : UInt8} {n : Nat}, n = x.toNat → UInt8.ofNat n = x := by
    rintro x n rfl
    exact UInt8.ofNat_toNat
  unfold tripleByte
  rw [hbyte (x := a) (by omega), hbyte (x := b) (by omega), hbyte (x := c) (by omega)]

/-- The digits of the bytes of four digits. -/
theorem digits_tripleByte {d0 d1 d2 d3 : Nat} (h0 : d0 < 64) (h1 : d1 < 64) (h2 : d2 < 64)
    (h3 : d3 < 64) : ∃ a b c, tripleByte d0 d1 d2 d3 = [a, b, c] ∧
      digits a b c = [d0, d1, d2, d3] := by
  refine ⟨_, _, _, rfl, ?_⟩
  unfold digits
  simp only [UInt8.toNat_ofNat', List.cons.injEq, and_true]
  omega

theorem map_eq_ok {x : Except String (List UInt8)} {f : List UInt8 → List UInt8} {v : List UInt8} :
    x.map f = .ok v ↔ ∃ w, x = .ok w ∧ v = f w := by
  cases x with
  | error what => exact ⟨nofun, fun ⟨_, h, _⟩ => nomatch h⟩
  | ok w =>
    refine ⟨fun h => ⟨w, rfl, (Except.ok.inj h).symm⟩, ?_⟩
    rintro ⟨w', hw, rfl⟩
    cases hw
    rfl

theorem fromBase64_eq_ok {s : Str} (hne : s ≠ []) {v : List UInt8} : fromBase64 s = .ok v ↔
    s.length % 4 = 0 ∧ (∃ n, validate s = .ok n) ∧ decodeLoop s = .ok v := by
  unfold fromBase64
  rw [if_neg hne]
  split
  · rename_i hlength
    exact ⟨nofun, fun hall => absurd hall.1 hlength⟩
  · rename_i hlength
    split
    · rename_i what hwhat
      refine ⟨nofun, ?_⟩
      rintro ⟨-, ⟨n, hn⟩, -⟩
      rw [hwhat] at hn
      nomatch hn
    · rename_i n hn
      exact ⟨fun hok => ⟨Decidable.not_not.mp hlength, ⟨n, hn⟩, hok⟩, fun hall => hall.2.2⟩

/-- A group in front of others is four digits. -/
theorem fromBase64_cons {c0 c1 c2 c3 : Char} {rest : Str} (hne : rest ≠ []) {v : List UInt8} :
    fromBase64 (c0 :: c1 :: c2 :: c3 :: rest) = .ok v ↔
      (IsDigit c0 ∧ IsDigit c1 ∧ IsDigit c2 ∧ IsDigit c3) ∧ ∃ w, fromBase64 rest = .ok w ∧
        v = tripleByte (decodeDigit c0) (decodeDigit c1) (decodeDigit c2) (decodeDigit c3) ++ w := by
  have hpos : 0 < rest.length := List.length_pos_iff.mpr hne
  rw [fromBase64_eq_ok (List.cons_ne_nil _ _), decodeLoop_cons _ _ _ _ hne,
    map_eq_ok]
  by_cases hlength : rest.length % 4 = 0
  · simp only [validate_cons (s := c1 :: c2 :: c3 :: rest) (by simp),
      validate_cons (s := c2 :: c3 :: rest) (by simp),
      validate_cons (s := c3 :: rest) (by simp; omega), validate_cons (s := rest) (by omega),
      fromBase64_eq_ok hne, List.length_cons]
    constructor
    · rintro ⟨-, ⟨n, h0, h1, h2, h3, hn⟩, w, hw, rfl⟩
      exact ⟨⟨h0, h1, h2, h3⟩, w, ⟨hlength, ⟨n, hn⟩, hw⟩, rfl⟩
    · rintro ⟨⟨h0, h1, h2, h3⟩, w, ⟨-, ⟨n, hn⟩, hw⟩, rfl⟩
      exact ⟨by omega, ⟨n, h0, h1, h2, h3, hn⟩, w, hw, rfl⟩
  · simp only [List.length_cons, fromBase64_eq_ok hne]
    constructor
    · rintro ⟨hall, -⟩
      omega
    · rintro ⟨-, w, ⟨hall, -⟩, -⟩
      exact absurd hall hlength

theorem fromBase64_last {c0 c1 c2 c3 : Char} {v : List UInt8} :
    fromBase64 [c0, c1, c2, c3] = .ok v ↔ IsDigit c0 ∧ IsDigit c1 ∧
      (IsDigit c2 ∧ (IsDigit c3 ∨ c3 = '=') ∨ c2 = '=' ∧ c3 = '=') ∧
      decodeLast (decodeDigit c0) (decodeDigit c1) (decodeDigit c2) (decodeDigit c3) = .ok v := by
  rw [fromBase64_eq_ok (List.cons_ne_nil _ _), decodeLoop_last, ← validate_pair]
  simp only [validate_cons (s := [c1, c2, c3]) (by simp),
    validate_cons (s := [c2, c3]) (by simp), List.length_cons, List.length_nil]
  constructor
  · rintro ⟨-, ⟨n, h0, h1, hn⟩, hv⟩
    exact ⟨h0, h1, ⟨n, hn⟩, hv⟩
  · rintro ⟨h0, h1, ⟨n, hn⟩, hv⟩
    exact ⟨by decide, ⟨n, h0, h1, hn⟩, hv⟩

/-! ## The last group -/

theorem decodeLast_digits {val0 val1 val2 val3 : Nat} (h2 : val2 < 64) (h3 : val3 < 64) :
    decodeLast val0 val1 val2 val3 = .ok (tripleByte val0 val1 val2 val3) := by
  unfold decodeLast
  rw [if_neg (by omega), if_neg (by omega)]

theorem decodeLast_two {val0 val1 val2 : Nat} (h2 : val2 < 64) {v : List UInt8} :
    decodeLast val0 val1 val2 254 = .ok v ↔
      val2 % 4 = 0 ∧ v = (tripleByte val0 val1 val2 0).take 2 := by
  unfold decodeLast
  rw [if_neg (by omega), if_pos rfl]
  by_cases hbits : val2 % 4 = 0
  · rw [if_neg (by simpa using hbits), Except.ok.injEq]
    exact ⟨fun h => ⟨hbits, h.symm⟩, fun h => h.2.symm⟩
  · rw [if_pos hbits]
    exact ⟨nofun, fun h => absurd h.1 hbits⟩

theorem decodeLast_one {val0 val1 val3 : Nat} {v : List UInt8} :
    decodeLast val0 val1 254 val3 = .ok v ↔
      val1 % 16 = 0 ∧ v = (tripleByte val0 val1 0 0).take 1 := by
  unfold decodeLast
  rw [if_pos rfl]
  by_cases hbits : val1 % 16 = 0
  · rw [if_neg (by simpa using hbits), Except.ok.injEq]
    exact ⟨fun h => ⟨hbits, h.symm⟩, fun h => h.2.symm⟩
  · rw [if_pos hbits]
    exact ⟨nofun, fun h => absurd h.1 hbits⟩

theorem eq_zero_of_toNat {x : UInt8} (h : x.toNat = 0) : x = 0 := UInt8.toNat_inj.mp h

/-- What the decoder takes as a last group is what the encoder makes of its bytes. -/
theorem toBase64_of_last {c0 c1 c2 c3 : Char} {v : List UInt8}
    (h : fromBase64 [c0, c1, c2, c3] = .ok v) : toBase64 v = [c0, c1, c2, c3] := by
  obtain ⟨h0, h1, hend, hv⟩ := fromBase64_last.mp h
  rcases hend with ⟨h2, h3 | rfl⟩ | ⟨rfl, rfl⟩
  · rw [decodeLast_digits h2 h3, Except.ok.injEq] at hv
    obtain ⟨a, b, c, hbytes, hdigits⟩ := digits_tripleByte h0 h1 h2 h3
    rw [← hv, hbytes, toBase64_cons, hdigits]
    simp only [List.map_cons, List.map_nil, encode_decode h0, encode_decode h1, encode_decode h2,
      encode_decode h3, toBase64_nil, List.append_nil]
  · rw [decode_padding, decodeLast_two h2] at hv
    obtain ⟨a, b, c, hbytes, hdigits⟩ := digits_tripleByte h0 h1 h2 (show 0 < 64 by decide)
    have hc : c = 0 := by
      simp only [digits, List.cons.injEq, and_true] at hdigits
      exact eq_zero_of_toNat (by have := c.toNat_lt; omega)
    rw [hv.2, hbytes, List.take_succ_cons, List.take_succ_cons, List.take_zero, toBase64_two, ← hc,
      hdigits]
    simp only [List.take_succ_cons, List.take_zero, List.map_cons, List.map_nil, encode_decode h0,
      encode_decode h1, encode_decode h2, List.cons_append, List.nil_append]
  · rw [decode_padding, decodeLast_one] at hv
    obtain ⟨a, b, c, hbytes, hdigits⟩ :=
      digits_tripleByte h0 h1 (show 0 < 64 by decide) (show 0 < 64 by decide)
    have hb := b.toNat_lt
    have hc := c.toNat_lt
    obtain ⟨rfl, rfl⟩ : b = 0 ∧ c = 0 := by
      simp only [digits, List.cons.injEq, and_true] at hdigits
      exact ⟨eq_zero_of_toNat (by omega), eq_zero_of_toNat (by omega)⟩
    rw [hv.2, hbytes, List.take_succ_cons, List.take_zero, toBase64_one, hdigits]
    simp only [List.take_succ_cons, List.take_zero, List.map_cons, List.map_nil, encode_decode h0,
      encode_decode h1, List.cons_append, List.nil_append]

/-- The encoder's last group is taken, with the bytes it was made of. -/
theorem fromBase64_three (a b c : UInt8) : fromBase64 ((digits a b c).map encodeDigit) =
    .ok [a, b, c] := by
  have hlt := digits_lt a b c
  simp only [digits, List.forall_mem_cons] at hlt
  obtain ⟨h0, h1, h2, h3, -⟩ := hlt
  simp only [digits, List.map_cons, List.map_nil]
  refine fromBase64_last.mpr ⟨isDigit_encode h0, isDigit_encode h1,
    .inl ⟨isDigit_encode h2, .inl (isDigit_encode h3)⟩, ?_⟩
  rw [decode_encode h0, decode_encode h1, decode_encode h2, decode_encode h3,
    decodeLast_digits h2 h3, tripleByte_digits]

theorem fromBase64_two (a b : UInt8) : fromBase64 (toBase64 [a, b]) = .ok [a, b] := by
  have hlt := digits_lt a b 0
  simp only [digits, List.forall_mem_cons] at hlt
  obtain ⟨h0, h1, h2, -, -⟩ := hlt
  refine fromBase64_last.mpr ⟨isDigit_encode h0, isDigit_encode h1,
    .inl ⟨isDigit_encode h2, .inr rfl⟩, ?_⟩
  rw [decode_encode h0, decode_encode h1, decode_encode h2, decode_padding,
    decodeLast_two h2]
  refine ⟨by simp, ?_⟩
  have hbytes := tripleByte_digits a b 0
  simp only [UInt8.toNat_zero, Nat.zero_mod] at hbytes
  rw [UInt8.toNat_zero, hbytes, List.take_succ_cons, List.take_succ_cons, List.take_zero]

theorem fromBase64_one (a : UInt8) : fromBase64 (toBase64 [a]) = .ok [a] := by
  have hlt := digits_lt a 0 0
  simp only [digits, List.forall_mem_cons] at hlt
  obtain ⟨h0, h1, -, -, -⟩ := hlt
  refine fromBase64_last.mpr ⟨isDigit_encode h0, isDigit_encode h1, .inr ⟨rfl, rfl⟩, ?_⟩
  rw [decode_encode h0, decode_encode h1, decode_padding, decodeLast_one]
  refine ⟨by simp, ?_⟩
  have hbytes := tripleByte_digits a 0 0
  simp only [UInt8.toNat_zero, Nat.zero_mod, Nat.zero_div, Nat.zero_mul, Nat.add_zero] at hbytes
  rw [UInt8.toNat_zero, Nat.zero_div, Nat.add_zero, hbytes, List.take_succ_cons, List.take_zero]

/-- The encoder's group in front of others. -/
theorem fromBase64_group {a b c : UInt8} {rest : Str} (hne : rest ≠ []) {v : List UInt8} :
    fromBase64 ((digits a b c).map encodeDigit ++ rest) = .ok v ↔
      ∃ w, fromBase64 rest = .ok w ∧ v = a :: b :: c :: w := by
  have hlt := digits_lt a b c
  simp only [digits, List.forall_mem_cons] at hlt
  obtain ⟨h0, h1, h2, h3, -⟩ := hlt
  simp only [digits, List.map_cons, List.map_nil, List.cons_append, List.nil_append]
  rw [fromBase64_cons hne, decode_encode h0, decode_encode h1, decode_encode h2, decode_encode h3,
    tripleByte_digits]
  exact and_iff_right ⟨isDigit_encode h0, isDigit_encode h1, isDigit_encode h2, isDigit_encode h3⟩

theorem toBase64_ne_nil {v : List UInt8} (h : v ≠ []) : toBase64 v ≠ [] := by
  match v with
  | [] => exact absurd rfl h
  | [a] => exact List.cons_ne_nil _ _
  | [a, b] => exact List.cons_ne_nil _ _
  | a :: b :: c :: rest => exact List.cons_ne_nil _ _

theorem isDigit_group {a b c : UInt8} {n : Nat} {d : Char}
    (h : d ∈ ((digits a b c).take n).map encodeDigit) : IsDigit d := by
  obtain ⟨i, hi, rfl⟩ := List.mem_map.mp h
  exact isDigit_encode (digits_lt a b c i (List.mem_of_mem_take hi))

theorem mem_toBase64 {d : Char} : ∀ {v : List UInt8}, d ∈ toBase64 v → IsDigit d ∨ d = '='
  | a :: b :: c :: rest, h => by
    rw [toBase64_cons, List.mem_append] at h
    exact h.elim (fun hmem => .inl (isDigit_group (n := 4) hmem)) mem_toBase64
  | [a, b], h => by
    rw [toBase64_two, List.mem_append, List.mem_singleton] at h
    exact h.imp isDigit_group id
  | [a], h => by
    rw [toBase64_one, List.mem_append] at h
    exact h.imp isDigit_group (by simp)

theorem length_toBase64 : ∀ v : List UInt8, (toBase64 v).length % 4 = 0
  | a :: b :: c :: rest => by
    have hrest := length_toBase64 rest
    have hgroup : ((digits a b c).map encodeDigit).length = 4 := rfl
    rw [toBase64_cons, List.length_append, hgroup]
    omega
  | [a, b] => by
    have hfour : (toBase64 [a, b]).length = 4 := rfl
    rw [hfour]
  | [a] => by
    have hfour : (toBase64 [a]).length = 4 := rfl
    rw [hfour]
  | [] => rfl

end Base64Lemmas

open Base64Lemmas

/-! ## Results -/

theorem from_base64_to_base64 (v : List UInt8) : fromBase64 (toBase64 v) = .ok v := by
  induction v using toBase64.induct with
  | case1 a b c rest ih =>
    rw [toBase64_cons]
    by_cases hrest : rest = []
    · rw [hrest, toBase64_nil, List.append_nil]
      exact fromBase64_three a b c
    · exact (fromBase64_group (toBase64_ne_nil hrest)).mpr ⟨rest, ih, rfl⟩
  | case2 a b => exact fromBase64_two a b
  | case3 a => exact fromBase64_one a
  | case4 => rfl

/-- Nothing is taken that the encoder does not make: not the same bytes in other characters, no
other length, no padding inside, no bits left over in the last digit. -/
theorem from_base64_eq_ok_iff (s : Str) (v : List UInt8) :
    fromBase64 s = .ok v ↔ s = toBase64 v := by
  constructor
  · intro h
    induction s using decodeLoop.induct generalizing v with
    | case1 c0 c1 c2 c3 => exact (toBase64_of_last h).symm
    | case2 c0 c1 c2 c3 rest hrest ih =>
      obtain ⟨⟨h0, h1, h2, h3⟩, w, hw, rfl⟩ := (fromBase64_cons hrest).mp h
      obtain ⟨a, b, c, hbytes, hdigits⟩ := digits_tripleByte h0 h1 h2 h3
      rw [hbytes, List.cons_append, List.cons_append, List.cons_append, List.nil_append,
        toBase64_cons, hdigits, ih w hw]
      simp only [List.map_cons, List.map_nil, encode_decode h0, encode_decode h1, encode_decode h2,
        encode_decode h3, List.cons_append, List.nil_append]
    | case3 s hlast hgroup =>
      match s with
      | [] =>
        cases h
        rfl
      | [_] => exact absurd ((fromBase64_eq_ok (List.cons_ne_nil _ _)).mp h).1 (by simp)
      | [_, _] => exact absurd ((fromBase64_eq_ok (List.cons_ne_nil _ _)).mp h).1 (by simp)
      | [_, _, _] => exact absurd ((fromBase64_eq_ok (List.cons_ne_nil _ _)).mp h).1 (by simp)
      | c0 :: c1 :: c2 :: c3 :: rest => exact absurd rfl (hgroup c0 c1 c2 c3 rest)
  · rintro rfl
    exact from_base64_to_base64 v

theorem length_of_taken {v w : List UInt8} {n : Nat}
    (h : fromBase64 ((toBase64 v).take n) = .ok w) (hn : n < (toBase64 v).length) : n % 4 = 0 := by
  have hwhole := length_toBase64 w
  rwa [← (from_base64_eq_ok_iff _ _).mp h, List.length_take_of_le (Nat.le_of_lt hn)] at hwhole

/-- A part of an encoding from its beginning is not taken, or gives a part of the bytes. -/
theorem from_base64_take {v w : List UInt8} {n : Nat} (hn : n < (toBase64 v).length)
    (h : fromBase64 ((toBase64 v).take n) = .ok w) : ∃ m < v.length, w = v.take m := by
  induction v using toBase64.induct generalizing n w with
  | case1 a b c rest ih =>
    rw [toBase64_cons, List.length_append] at hn
    by_cases hzero : n = 0
    · subst hzero
      exact ⟨0, Nat.zero_lt_succ _, (Except.ok.inj h).symm⟩
    have hlength := length_of_taken h (by rw [toBase64_cons, List.length_append]; omega)
    obtain ⟨k, rfl⟩ : ∃ k, n = 4 + k := ⟨n - 4, by omega⟩
    have hgroup : ((digits a b c).map encodeDigit).length = 4 := rfl
    have hk : k < (toBase64 rest).length := by omega
    rw [toBase64_cons, ← hgroup, List.take_length_add_append] at h
    by_cases hpart : (toBase64 rest).take k = []
    · have hrest : 0 < rest.length := by
        rw [List.length_pos_iff]
        rintro rfl
        cases hk
      rw [hpart, List.append_nil, fromBase64_three] at h
      exact ⟨3, by simpa using hrest, (Except.ok.inj h).symm⟩
    · obtain ⟨w, hw, rfl⟩ := (fromBase64_group hpart).mp h
      obtain ⟨m, hm, rfl⟩ := ih hk hw
      exact ⟨m + 3, by simpa using hm, rfl⟩
  | case2 a b =>
    have hlength := length_of_taken h hn
    have hfour : (toBase64 [a, b]).length = 4 := rfl
    obtain rfl : n = 0 := by omega
    exact ⟨0, Nat.zero_lt_succ _, (Except.ok.inj h).symm⟩
  | case3 a =>
    have hlength := length_of_taken h hn
    have hfour : (toBase64 [a]).length = 4 := rfl
    obtain rfl : n = 0 := by omega
    exact ⟨0, Nat.zero_lt_succ _, (Except.ok.inj h).symm⟩
  | case4 => nomatch hn

end Stormancer.Base64
