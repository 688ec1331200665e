import Mathlib.Data.List.DropRight
import Stormancer.Client.Dto
import Stormancer.Utilities.Base64

/-!
# `TokenHandler::decodeToken`

A token is connection data in MessagePack and base64, and behind a `-` a signature that the client
does not look at. Quotes around it are removed. The text of a token is the list of its bytes, on all
platforms.

Results:
1. `decode_token`: the data of a token is read back, whatever its signature.
2. `decode_token_cut`: a token without the end of its data is not decoded.
-/

namespace Stormancer.Tokens

open Msgpack Dto

/-! ## The code -/

def stringTrim (str : Str) (ch : Char) : Str :=
  (str.dropWhile (· == ch)).rdropWhile (· == ch)

/-- What a token is rejected with. -/
inductive TokenError
  | invalidArgument (what : String)
  | runtimeError (what : String)
  | unpackError (error : Error)
deriving DecidableEq

structure SceneEndpoint where
  token : Str
  version : Int := 1
  tokenData : ConnectionData
deriving DecidableEq

/-- `Serializer::deserializeOne<TOutput>` of an array of bytes, with what a new variable holds. -/
def deserializeOne {t : Ty} (data : List UInt8) (result : t.Val) : Except Error t.Val :=
  match unpacker.unpack data with
  | .error e => .error e
  | .ok (obj, _) => unpacker.convert t result obj

/-- `decodeToken`, with what a new `ConnectionData` holds. -/
def decodeToken (result : ConnectionData) (token2 : Str) : Except TokenError SceneEndpoint :=
  if token2.length = 0 then .error (.invalidArgument "Empty token")
  else
    let token := stringTrim token2 '"'
    let data := (StringUtilities.stringSplitChar token '-').headD []
    match Base64.fromBase64 data with
    | .error what => .error (.runtimeError what)
    | .ok vectorData =>
      match deserializeOne (t := .map .connectionData) vectorData result with
      | .error e => .error (.unpackError e)
      | .ok cData => .ok { token := token, tokenData := cData }

/-! ## The property -/

/-- The text of connection data in a token. -/
def encoded (cData : ConnectionData) : Str :=
  Base64.toBase64 (serialized ⟨.map .connectionData, cData⟩)

/-- What comes behind the data: quotes, or a signature and anything. -/
inductive IsTail : Str → Prop
  | quotes (n : Nat) : IsTail (List.replicate n '"')
  | signature (text : Str) : IsTail ('-' :: text)

namespace TokensLemmas

open Base64 Base64.Base64Lemmas StringUtilities DtoLemmas

/-! ## The pieces of a token -/

theorem rdropWhile_append {p : Char → Bool} (before : Str) {c : Char} (hc : p c = false)
    (text : Str) : (before ++ c :: text).rdropWhile p = before ++ c :: text.rdropWhile p := by
  induction text using List.reverseRecOn with
  | nil => rw [List.rdropWhile_nil, List.rdropWhile_concat_neg _ _ _ (by simp [hc])]
  | append_singleton text last ih =>
    rw [← List.cons_append, ← List.append_assoc, List.rdropWhile_concat, List.rdropWhile_concat, ih]
    split <;> simp

theorem not_mem_encoded {cData : ConnectionData} {c : Char} (hdigit : decodeDigit c = 255) :
    c ∉ encoded cData := by
  intro hmem
  rcases mem_toBase64 hmem with h | rfl
  · unfold IsDigit at h
    omega
  · exact absurd hdigit (by decide)

theorem rdropWhile_quotes (n : Nat) : (List.replicate n '"').rdropWhile (· == '"') = [] := by
  rw [List.rdropWhile_eq_nil_iff]
  exact fun c hc => by simp [List.eq_of_mem_replicate hc]

theorem rdropWhile_signature (text : Str) :
    ('-' :: text).rdropWhile (· == '"') = '-' :: text.rdropWhile (· == '"') :=
  rdropWhile_append [] (by decide) text

/-- Text without quotes stays when quotes are removed on its right. -/
theorem rdropWhile_text {text tail : Str} (hquote : '"' ∉ text) (htail : IsTail tail) :
    (text ++ tail).rdropWhile (· == '"') = text ++ tail.rdropWhile (· == '"') := by
  cases htail with
  | signature signed =>
    rw [rdropWhile_append text (by decide) signed, rdropWhile_signature]
  | quotes n =>
    rw [rdropWhile_quotes, List.append_nil]
    induction n with
    | zero =>
      rw [List.replicate_zero, List.append_nil, List.rdropWhile_eq_self_iff]
      intro hne
      have hlast : text.getLast hne ≠ '"' := fun h => hquote (h ▸ List.getLast_mem hne)
      simpa using hlast
    | succ n ih =>
      rw [List.replicate_succ', ← List.append_assoc, List.rdropWhile_concat_pos _ _ _ (by simp), ih]

theorem trim_eq {text tail : Str} (hquote : '"' ∉ text) (htail : IsTail tail) (n : Nat) :
    stringTrim (List.replicate n '"' ++ text ++ tail) '"' =
      text ++ tail.rdropWhile (· == '"') := by
  have hquotes : ∀ (n : Nat) (rest : Str), (List.replicate n '"' ++ rest).dropWhile (· == '"') =
      rest.dropWhile (· == '"') := fun _ _ =>
    List.dropWhile_append_of_pos fun c hc => by simp [List.eq_of_mem_replicate hc]
  unfold stringTrim
  rw [List.append_assoc, hquotes, ← rdropWhile_text hquote htail]
  cases text with
  | nil =>
    cases htail with
    | quotes n =>
      have hnone := hquotes n []
      rw [List.append_nil, List.dropWhile_nil] at hnone
      rw [List.nil_append, hnone, List.rdropWhile_nil, rdropWhile_quotes]
    | signature signed => rfl
  | cons c text =>
    have hc : c ≠ '"' := fun h => hquote (h ▸ List.mem_cons_self)
    rw [List.cons_append, List.dropWhile_cons_of_neg (by simpa using hc)]

/-- The piece in front of the first separator. -/
theorem piece_eq {text tail : Str} (hdash : '-' ∉ text) (htail : IsTail tail) :
    (stringSplitChar (text ++ tail.rdropWhile (· == '"')) '-').headD [] = text := by
  rw [stringSplitChar_eq]
  cases htail with
  | quotes n =>
    rw [rdropWhile_quotes, List.append_nil, List.splitOn_eq_singleton hdash]
    rfl
  | signature signed =>
    rw [rdropWhile_signature, List.splitOn_append_cons_self_of_not_mem hdash]
    rfl

/-- What is decoded of a token is its text in front of the first separator. -/
theorem decodeToken_eq {text tail : Str} (hquote : '"' ∉ text) (hdash : '-' ∉ text)
    (htail : IsTail tail) (n : Nat) (result : ConnectionData) :
    decodeToken result (List.replicate n '"' ++ text ++ tail) =
      if List.replicate n '"' ++ text ++ tail = [] then .error (.invalidArgument "Empty token")
      else
        match fromBase64 text with
        | .error what => .error (.runtimeError what)
        | .ok vectorData =>
          match deserializeOne (t := .map .connectionData) vectorData result with
          | .error e => .error (.unpackError e)
          | .ok cData =>
            .ok { token := text ++ tail.rdropWhile (· == '"'), tokenData := cData } := by
  unfold decodeToken
  simp only [List.length_eq_zero_iff, trim_eq hquote htail n, piece_eq hdash htail]

theorem deserializeOne_serialized {cData : ConnectionData}
    (hwf : MapTy.connectionData.WellFormed cData) (result : ConnectionData) :
    deserializeOne (t := .map .connectionData) (serialized ⟨.map .connectionData, cData⟩) result =
      .ok cData := by
  obtain ⟨o, ho⟩ := exists_carries (.map .connectionData) hwf
  have hunpack := unpack_of_encodes ho.encodes []
  rw [List.append_nil] at hunpack
  have hread : unpacker.unpack (serialized ⟨.map .connectionData, cData⟩) = _ := hunpack
  unfold deserializeOne
  rw [hread]
  exact ho.convert result

theorem isTail_trimmed {tail : Str} (htail : IsTail tail) :
    IsTail (tail.rdropWhile (· == '"')) := by
  cases htail with
  | quotes n =>
    rw [rdropWhile_quotes]
    exact .quotes 0
  | signature text =>
    rw [rdropWhile_signature]
    exact .signature _

/-- A token with all of its data. -/
theorem decodeToken_encoded {cData : ConnectionData}
    (hwf : MapTy.connectionData.WellFormed cData) (result : ConnectionData) (n : Nat) {tail : Str}
    (htail : IsTail tail) :
    decodeToken result (List.replicate n '"' ++ encoded cData ++ tail) =
      .ok { token := encoded cData ++ tail.rdropWhile (· == '"'), tokenData := cData } := by
  have hdata : serialized ⟨.map .connectionData, cData⟩ ≠ [] :=
    (decodes (v := ⟨.map .connectionData, cData⟩) hwf).1
  have hencoded : encoded cData ≠ [] := toBase64_ne_nil hdata
  have hne : List.replicate n '"' ++ encoded cData ++ tail ≠ [] := by simp [hencoded]
  have hbytes : fromBase64 (encoded cData) = .ok (serialized ⟨.map .connectionData, cData⟩) :=
    from_base64_to_base64 _
  rw [decodeToken_eq (not_mem_encoded (by decide)) (not_mem_encoded (by decide)) htail,
    if_neg hne, hbytes]
  dsimp only
  rw [deserializeOne_serialized hwf]

end TokensLemmas

open TokensLemmas Base64 Base64.Base64Lemmas DtoLemmas

/-! ## Results -/

/-- The data of a token is read back, with quotes around it and any signature. The token of the
endpoint is decoded to the same endpoint. -/
theorem decode_token {cData : ConnectionData} (hwf : MapTy.connectionData.WellFormed cData)
    (result : ConnectionData) (n : Nat) {tail : Str} (htail : IsTail tail) :
    ∃ endpoint, decodeToken result (List.replicate n '"' ++ encoded cData ++ tail) = .ok endpoint ∧
      endpoint.tokenData = cData ∧ decodeToken result endpoint.token = .ok endpoint := by
  refine ⟨_, decodeToken_encoded hwf result n htail, rfl, ?_⟩
  have hagain := decodeToken_encoded hwf result 0 (isTail_trimmed htail)
  rwa [List.rdropWhile_idempotent, List.replicate_zero, List.nil_append] at hagain

def lobby : ConnectionData :=
  ⟨[], ['a'], [], [], none, 0, 0, [], ['l'], [], 2⟩

theorem wellFormed_lobby : MapTy.connectionData.WellFormed lobby :=
  ⟨⟨by simp [lobby], by decide⟩, ⟨by simp [lobby], by decide⟩, ⟨by simp [lobby], by decide⟩,
    ⟨by simp [lobby], by decide⟩, nofun, ⟨by simp [lobby], by decide⟩,
    ⟨by simp [lobby], by decide⟩, ⟨by simp [lobby], by decide⟩⟩

theorem decode_token_lobby :
    ∃ endpoint, decodeToken lobby (List.replicate 1 '"' ++ encoded lobby ++ ['-', 'x', '"']) =
      .ok endpoint ∧ endpoint.tokenData = lobby ∧
      decodeToken lobby endpoint.token = .ok endpoint :=
  decode_token wellFormed_lobby lobby 1 (.signature ['x', '"'])

/-- A token that ends inside its data, or whose data ends too early, is not decoded. -/
theorem decode_token_cut {cData : ConnectionData} (hwf : MapTy.connectionData.WellFormed cData)
    (result : ConnectionData) (n : Nat) {k : Nat} (hk : k < (encoded cData).length) {tail : Str}
    (htail : IsTail tail) :
    ∃ e, decodeToken result (List.replicate n '"' ++ (encoded cData).take k ++ tail) =
      .error e := by
  have hnot : ∀ {c : Char}, decodeDigit c = 255 → c ∉ (encoded cData).take k := fun hc hmem =>
    not_mem_encoded hc (List.mem_of_mem_take hmem)
  rw [decodeToken_eq (hnot (by decide)) (hnot (by decide)) htail]
  split
  · exact ⟨_, rfl⟩
  · cases hbytes : fromBase64 ((encoded cData).take k) with
    | error what => exact ⟨_, rfl⟩
    | ok vectorData =>
      obtain ⟨m, hm, rfl⟩ := from_base64_take hk hbytes
      obtain ⟨o, ho⟩ := exists_carries (.map .connectionData) hwf
      have hcut : unpacker.unpack ((serialized ⟨.map .connectionData, cData⟩).take m) =
          .error .insufficientBytes := unpack_truncated ho.encodes hm
      unfold deserializeOne
      dsimp only
      rw [hcut]
      exact ⟨_, rfl⟩

theorem decode_token_cut_lobby :
    ∃ e, decodeToken lobby (List.replicate 1 '"' ++ (encoded lobby).take 8 ++ List.replicate 1 '"') =
      .error e :=
  decode_token_cut wellFormed_lobby lobby 1 (by decide +kernel) (.quotes 1)

end Stormancer.Tokens
