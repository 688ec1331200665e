import Stormancer.Streams.IByteStream

/-!
# `Serializer`

Values are read from a stream with MessagePack. All of the unread bytes are copied to a buffer
first, the values are unpacked from it one after the other, and then the stream is moved to where
the last of them ends. When a value cannot be decoded, the exception leaves the stream where the
copy left it, at its end.

Results:
1. `deserialize_of_encodings`: values are read back from their encodings, with one call or with one
   for each, and the stream is moved to the byte after them.
2. `restores_iff`: after a failed call the stream is where the value that failed begins exactly when
   nothing is unread there.
3. `failed_call_drains`: a value that fails in front of other bytes.
-/

namespace Stormancer.Serializer

open Streams

/-! ## Definitions -/

/-- `msgpack::unpack`, with the number of bytes that it used, and `msgpack::object::convert` to a
variable that holds a value already. Both may throw. -/
structure Unpacker (Ty : Type) (Val : Ty → Type) (Obj Error : Type) where
  unpack : List UInt8 → Except Error (Obj × Nat)
  convert : (t : Ty) → Val t → Obj → Except Error (Val t)

/-- A variable with its type. -/
abbrev Var {Ty : Type} (Val : Ty → Type) := (t : Ty) × Val t

variable {Ty : Type} {Val : Ty → Type} {Obj Error : Type}

/-- `deserialize(data, dataSize, value, readOffset)`, with the new offset. -/
def deserializeBytes (u : Unpacker Ty Val Obj Error) (data : List UInt8) (value : Var Val)
    (readOffset : Nat) : Except Error (Var Val × Nat) :=
  match u.unpack data with
  | .error e => .error e
  | .ok (obj, used) =>
    match u.convert value.1 value.2 obj with
    | .error e => .error e
    | .ok v => .ok (⟨value.1, v⟩, readOffset + used)

/-- `UnstackAndDeserialize`. -/
def unstackAndDeserialize (u : Unpacker Ty Val Obj Error) (data : List UInt8) :
    Nat → List (Var Val) → Except Error (List (Var Val) × Nat)
  | readOffset, [] => .ok ([], readOffset)
  | readOffset, value :: args =>
    match deserializeBytes u (data.drop readOffset) value readOffset with
    | .error e => .error e
    | .ok (v, readOffset) =>
      match unstackAndDeserialize u data readOffset args with
      | .error e => .error e
      | .ok (vs, readOffset) => .ok (v :: vs, readOffset)

/-- `deserialize(stream, args...)`, with the stream after it, also when it throws. -/
def deserialize (u : Unpacker Ty Val Obj Error) (stream : IByteStream) (args : List (Var Val)) :
    Except Error (List (Var Val)) × IByteStream :=
  let g := stream.tellg
  let buffer := g.2.readVector []
  match unstackAndDeserialize u buffer.1 0 args with
  | .error e => (.error e, buffer.2)
  | .ok (values, readOffset) => (.ok values, buffer.2.seekgPos (g.1 + readOffset))

/-- `deserializeOne<TOutput>(stream)` for each type, with what new variables hold. It stops at the
first exception. -/
def deserializeEach (u : Unpacker Ty Val Obj Error) (result : (t : Ty) → Val t) :
    IByteStream → List Ty → Except Error (List (Var Val)) × IByteStream
  | stream, [] => (.ok [], stream)
  | stream, t :: ts =>
    match deserialize u stream [⟨t, result t⟩] with
    | (.error e, stream) => (.error e, stream)
    | (.ok values, stream) =>
      match deserializeEach u result stream ts with
      | (.error e, stream) => (.error e, stream)
      | (.ok rest, stream) => (.ok (values ++ rest), stream)

/-- Each value is one object: whatever follows its encoding, `unpack` uses the bytes of the
encoding, and the object is converted to the value whatever the variable holds. -/
structure Decodes (u : Unpacker Ty Val Obj Error) (encode : Var Val → List UInt8) : Prop where
  nonempty : ∀ v, encode v ≠ []
  unpack : ∀ v rest, ∃ obj, u.unpack (encode v ++ rest) = .ok (obj, (encode v).length) ∧
    ∀ value, u.convert v.1 value obj = .ok v.2

/-! ## The property of a failed call -/

/-- The offset at which the first value begins that cannot be decoded. -/
def failsAt (u : Unpacker Ty Val Obj Error) (data : List UInt8) :
    Nat → List (Var Val) → Option Nat
  | _, [] => none
  | readOffset, value :: args =>
    match deserializeBytes u (data.drop readOffset) value readOffset with
    | .error _ => some readOffset
    | .ok (_, readOffset) => failsAt u data readOffset args

/-- When the call throws, the stream is where the value that could not be decoded begins, and the
bytes from there on can be read. -/
def Restores (u : Unpacker Ty Val Obj Error) (stream : IByteStream) (args : List (Var Val)) :
    Prop :=
  ∀ e, (deserialize u stream args).1 = .error e →
    ∃ start, failsAt u stream.unread 0 args = some start ∧
      (deserialize u stream args).2.currentPosition = stream.currentPosition + start ∧
      (deserialize u stream args).2.unread = stream.unread.drop start

namespace SerializerLemmas

open IByteStream IByteStream.IByteStreamLemmas IByteStream.PositionsLemmas
open ByteStreamBuf.PointersLemmas (showmanyc_eq)

variable {u : Unpacker Ty Val Obj Error} {s : IByteStream} {data : List UInt8}

/-! ### Positions -/

theorem tellg_snd (h : s.Over data) : s.tellg.2 = s := by
  cases hgood : s.good with
  | false => simp [tellg, hgood]
  | true =>
    by_cases hnil : data = []
    · unfold tellg
      rw [if_pos hgood, seekoff_get h.inv.put.read, if_neg]
      simp [within_iff h, hnil]
    · rw [tellg_eq h hgood hnil]

/-- A read of all unread bytes moves the stream to its end. -/
theorem read_all (h : s.Over data) (hgood : s.good = true) :
    (s.read s.unread.length).2 = moveTo s data.length := by
  have hi := h.inv
  have hlength := length_unread hi
  have hbytes := (read_spec hi hgood s.unread.length).2.1
  have hend : s.buffer.getArea.next + min s.buffer.showmanyc s.unread.length =
      s.buffer.getArea.first + data.length := by
    rw [showmanyc_eq hi, ← hlength, min_self, hi.put.getFirst, ← h.last]
    omega
  have hcopied : ((s.buffer.xsgetn s.unread.length).1.length : Int) = s.unread.length := by
    unfold IByteStream.read at hbytes
    rw [if_pos hgood] at hbytes
    dsimp only at hbytes
    rw [hbytes, List.take_length]
  unfold IByteStream.read moveTo
  rw [if_pos hgood, hcopied, hgood]
  unfold ByteStreamBuf.xsgetn ByteStreamBuf.SeeksLemmas.moveGet
  rw [if_pos hi.put.read, ← hend]
  simp

/-- The bytes of the buffer are what is unread, and the stream is at its end. -/
theorem drain_eq (h : s.Over data) (hgood : s.good = true) :
    s.readVector [] = (s.unread, moveTo s data.length) := by
  have hlength := length_unread h.inv
  have hbytes := (readVector_of_unread h.inv hgood []).1
  refine Prod.ext ?_ ?_
  · rw [hbytes]
    split <;> simp_all
  · unfold readVector
    rw [inAvail_eq h.inv]
    dsimp only
    split
    · exact read_all h hgood
    · have hend : s.buffer.getArea.next = data.length := by rw [← h.last]; omega
      rw [← hend, moveTo_next h]

theorem deserialize_eq (u : Unpacker Ty Val Obj Error) (h : s.Over data) (hgood : s.good = true)
    (args : List (Var Val)) :
    deserialize u s args =
      match unstackAndDeserialize u s.unread 0 args with
      | .error e => (.error e, moveTo s data.length)
      | .ok (values, readOffset) =>
        (.ok values, (moveTo s data.length).seekgPos (s.tellg.1 + readOffset)) := by
  unfold deserialize
  dsimp only
  rw [tellg_snd h, drain_eq h hgood]

/-! ### A failed call -/

/-- The position after a failed call. -/
theorem drained_position (h : s.Over data) :
    (moveTo s data.length).currentPosition = s.currentPosition + s.unread.length ∧
      (moveTo s data.length).unread = [] := by
  have hlength := length_unread h.inv
  have hlast := h.last
  have hnonneg := Int.natCast_nonneg data.length
  rw [currentPosition_moveTo h hnonneg (le_refl _), currentPosition_eq h.inv,
    unread_moveTo h hnonneg (le_refl _)]
  refine ⟨by omega, by simp⟩

theorem failsAt_isSome (u : Unpacker Ty Val Obj Error) (bytes : List UInt8) (readOffset : Nat)
    (args : List (Var Val)) :
    (∃ e, unstackAndDeserialize u bytes readOffset args = .error e) ↔
      ∃ start, failsAt u bytes readOffset args = some start := by
  induction args generalizing readOffset with
  | nil => simp [unstackAndDeserialize, failsAt]
  | cons value args ih =>
    unfold unstackAndDeserialize failsAt
    cases deserializeBytes u (bytes.drop readOffset) value readOffset with
    | error e => simp
    | ok r =>
      have hrest := ih r.2
      dsimp only
      rw [← hrest]
      cases unstackAndDeserialize u bytes r.2 args <;> simp

/-! ### Encodings -/

variable {encode : Var Val → List UInt8}

/-- `Decodes` for one value. -/
structure DecodesValue (u : Unpacker Ty Val Obj Error) (encode : Var Val → List UInt8)
    (v : Var Val) : Prop where
  nonempty : encode v ≠ []
  unpack : ∀ rest, ∃ obj, u.unpack (encode v ++ rest) = .ok (obj, (encode v).length) ∧
    ∀ value, u.convert v.1 value obj = .ok v.2

theorem decodesValue (hd : Decodes u encode) (v : Var Val) : DecodesValue u encode v :=
  ⟨hd.nonempty v, hd.unpack v⟩

theorem deserializeBytes_of_encoding {v : Var Val} (hd : DecodesValue u encode v)
    (rest : List UInt8) {value : Var Val} (htype : value.1 = v.1) (readOffset : Nat) :
    deserializeBytes u (encode v ++ rest) value readOffset =
      .ok (v, readOffset + (encode v).length) := by
  obtain ⟨obj, hunpack, hconvert⟩ := hd.unpack rest
  obtain ⟨t, held⟩ := value
  subst htype
  unfold deserializeBytes
  rw [hunpack]
  dsimp only
  rw [hconvert held]

theorem unstack_of_encodings {bytes rest : List UInt8} {values args : List (Var Val)}
    (hd : ∀ v ∈ values, DecodesValue u encode v)
    (htypes : args.map Sigma.fst = values.map Sigma.fst) {readOffset : Nat}
    (hbytes : bytes.drop readOffset = values.flatMap encode ++ rest) :
    unstackAndDeserialize u bytes readOffset args =
      .ok (values, readOffset + (values.flatMap encode).length) := by
  induction values generalizing readOffset args with
  | nil =>
    rw [List.map_nil, List.map_eq_nil_iff] at htypes
    subst htypes
    rfl
  | cons v values ih =>
    cases args with
    | nil => cases htypes
    | cons value args =>
      rw [List.map_cons, List.map_cons, List.cons.injEq] at htypes
      rw [List.flatMap_cons, List.append_assoc] at hbytes
      have hrest : bytes.drop (readOffset + (encode v).length) =
          values.flatMap encode ++ rest := by
        rw [← List.drop_drop, hbytes, List.drop_left]
      unfold unstackAndDeserialize
      rw [hbytes, deserializeBytes_of_encoding (hd v List.mem_cons_self) _ htypes.1]
      dsimp only
      rw [ih (fun x hx => hd x (List.mem_cons_of_mem _ hx)) htypes.2 hrest, List.flatMap_cons,
        List.length_append, add_assoc]

/-- What follows the encodings in a stream is where the stream can be moved to. -/
theorem moved_of_unread (h : s.Over data) {bytes rest : List UInt8} (hne : bytes ≠ [])
    (hunread : s.unread = bytes ++ rest) :
    data ≠ [] ∧ s.buffer.getArea.next + bytes.length ≤ data.length ∧
      (moveTo s (s.buffer.getArea.next + bytes.length)).unread = rest := by
  have hlength := length_unread h.inv
  have hnonneg := h.inv.next_nonneg
  have hlast := h.last
  have hpos := List.length_pos_of_ne_nil hne
  have hsum := congrArg List.length hunread
  rw [List.length_append] at hsum
  have hle : s.buffer.getArea.next + bytes.length ≤ data.length := by omega
  refine ⟨?_, hle, ?_⟩
  · rintro rfl
    rw [List.length_nil] at hle
    omega
  · rw [unread_moveTo h (by omega) hle, Int.toNat_add hnonneg (by omega), Int.toNat_natCast,
      ← List.drop_drop, ← h.unread, hunread, List.drop_left]

theorem values_ne_nil {values : List (Var Val)} (hd : ∀ v ∈ values, DecodesValue u encode v)
    (hne : values ≠ []) : values.flatMap encode ≠ [] := by
  obtain ⟨v, values, rfl⟩ := List.exists_cons_of_ne_nil hne
  simp [(hd v List.mem_cons_self).nonempty]

theorem encodings_ne_nil (hd : Decodes u encode) {values : List (Var Val)} (hne : values ≠ []) :
    values.flatMap encode ≠ [] :=
  values_ne_nil (fun v _ => decodesValue hd v) hne

theorem deserialize_of_values (h : s.Over data) (hgood : s.good = true)
    {values args : List (Var Val)} (hd : ∀ v ∈ values, DecodesValue u encode v) (hne : values ≠ [])
    (htypes : args.map Sigma.fst = values.map Sigma.fst) {rest : List UInt8}
    (hunread : s.unread = values.flatMap encode ++ rest) :
    deserialize u s args =
      (.ok values, moveTo s (s.buffer.getArea.next + (values.flatMap encode).length)) := by
  obtain ⟨hdata, hle, -⟩ := moved_of_unread h (values_ne_nil hd hne) hunread
  have hnonneg := h.inv.next_nonneg
  have hend := over_moveTo h (Int.natCast_nonneg data.length) (le_refl _)
  rw [deserialize_eq u h hgood, unstack_of_encodings hd htypes (by simpa using hunread)]
  dsimp only
  rw [tellg_eq h hgood hdata, Nat.zero_add, seekgPos_eq hend hgood,
    if_pos ⟨hdata, by omega, by omega⟩, moveTo_moveTo]

theorem deserialize_of_unread (hd : Decodes u encode) (h : s.Over data) (hgood : s.good = true)
    {values args : List (Var Val)} (hne : values ≠ [])
    (htypes : args.map Sigma.fst = values.map Sigma.fst) {rest : List UInt8}
    (hunread : s.unread = values.flatMap encode ++ rest) :
    deserialize u s args =
      (.ok values, moveTo s (s.buffer.getArea.next + (values.flatMap encode).length)) :=
  deserialize_of_values h hgood (fun v _ => decodesValue hd v) hne htypes hunread

theorem deserializeEach_of_unread (hd : Decodes u encode) (result : (t : Ty) → Val t)
    (h : s.Over data) (hgood : s.good = true) {values : List (Var Val)} {rest : List UInt8}
    (hunread : s.unread = values.flatMap encode ++ rest) :
    deserializeEach u result s (values.map Sigma.fst) =
      (.ok values, moveTo s (s.buffer.getArea.next + (values.flatMap encode).length)) := by
  induction values generalizing s with
  | nil =>
    rw [List.flatMap_nil, List.length_nil, Nat.cast_zero, add_zero, moveTo_next h]
    rfl
  | cons v values ih =>
    rw [List.flatMap_cons, List.append_assoc] at hunread
    have htype : [(⟨v.1, result v.1⟩ : Var Val)].map Sigma.fst = [v].map Sigma.fst := rfl
    have hfirst := deserialize_of_unread hd h hgood (List.cons_ne_nil v []) htype
      (by simpa using hunread)
    rw [List.flatMap_singleton] at hfirst
    obtain ⟨-, hle, hnext⟩ := moved_of_unread h (hd.nonempty v) hunread
    have hnonneg := h.inv.next_nonneg
    have hrest := ih (over_moveTo h (by omega) hle) hgood hnext
    unfold deserializeEach
    rw [List.map_cons]
    dsimp only
    rw [hfirst]
    dsimp only
    rw [hrest]
    -- the second move starts where the first one ended
    have hmoved : (moveTo s (s.buffer.getArea.next + (encode v).length)).buffer.getArea.next =
        s.buffer.getArea.next + (encode v).length := by
      change s.buffer.getArea.first + _ = _
      rw [h.inv.put.getFirst, zero_add]
    rw [moveTo_moveTo, hmoved, List.flatMap_cons, List.length_append, Nat.cast_add, add_assoc]
    rfl

end SerializerLemmas

open SerializerLemmas IByteStream IByteStream.IByteStreamLemmas IByteStream.PositionsLemmas

/-! ## Results -/

/-- One call for all values and one call for each give the same values. The read position moves by
the bytes of the encodings, and what follows them is unread. A call without variables does not
compile. -/
theorem deserialize_of_encodings {u : Unpacker Ty Val Obj Error} {encode : Var Val → List UInt8}
    (hd : Decodes u encode) (result : (t : Ty) → Val t) {s : IByteStream} {data : List UInt8}
    (h : s.Over data) (hgood : s.good = true) {values args : List (Var Val)} (hne : values ≠ [])
    (htypes : args.map Sigma.fst = values.map Sigma.fst) {rest : List UInt8}
    (hunread : s.unread = values.flatMap encode ++ rest) :
    ∃ t, deserialize u s args = (.ok values, t) ∧
      deserializeEach u result s (values.map Sigma.fst) = (.ok values, t) ∧ t.good = true ∧
      t.currentPosition = s.currentPosition + (values.flatMap encode).length ∧
      t.unread = rest := by
  obtain ⟨-, hle, hrest⟩ := moved_of_unread h (encodings_ne_nil hd hne) hunread
  have hnonneg := h.inv.next_nonneg
  refine ⟨_, deserialize_of_unread hd h hgood hne htypes hunread,
    deserializeEach_of_unread hd result h hgood hunread, hgood, ?_, hrest⟩
  rw [currentPosition_moveTo h (by omega) hle, currentPosition_eq h.inv]

/-- The positive integers that are their own encoding. -/
def fixint : Unpacker Unit (fun _ => Fin 128) (Fin 128) Unit where
  unpack
    | [] => .error ()
    | b :: _ => if h : b.toNat < 128 then .ok (⟨b.toNat, h⟩, 1) else .error ()
  convert _ _ obj := .ok obj

theorem fixint_decodes : Decodes fixint fun v => [UInt8.ofNat v.2.val] where
  nonempty v := by simp
  unpack v rest := by
    have hvalue : (UInt8.ofNat v.2.val).toNat = v.2.val := by
      rw [UInt8.toNat_ofNat']
      omega
    refine ⟨v.2, ?_, fun _ => rfl⟩
    simp [fixint, hvalue]

/-- Two integers are read after one that was read already, and one is left. -/
theorem deserialize_two : ∃ t, deserialize fixint ((ofBytes [7, 1, 2, 3]).access (.read 1))
      [⟨(), 0⟩, ⟨(), 0⟩] = (.ok [⟨(), 1⟩, ⟨(), 2⟩], t) ∧
    deserializeEach fixint (fun _ => 0) ((ofBytes [7, 1, 2, 3]).access (.read 1)) [(), ()] =
      (.ok [⟨(), 1⟩, ⟨(), 2⟩], t) ∧ t.good = true ∧
    t.currentPosition = ((ofBytes [7, 1, 2, 3]).access (.read 1)).currentPosition + 2 ∧
    t.unread = [3] := by
  have hover := over_run [7, 1, 2, 3] [.read 1]
  have hunread : ((ofBytes [7, 1, 2, 3]).access (.read 1)).unread =
      [(⟨(), 1⟩ : Var fun _ : Unit => Fin 128), ⟨(), 2⟩].flatMap (fun v => [UInt8.ofNat v.2.val]) ++
        [3] := by
    decide
  exact deserialize_of_encodings fixint_decodes (fun _ => 0) hover (by decide)
    (List.cons_ne_nil _ _) rfl hunread

/-- After each call that throws, for every content of the stream and every position in it. -/
theorem restores_iff (u : Unpacker Ty Val Obj Error) {s : IByteStream} {data : List UInt8}
    (h : s.Over data) (hgood : s.good = true) (args : List (Var Val)) :
    Restores u s args ↔ ∀ start, failsAt u s.unread 0 args = some start →
      start = s.unread.length := by
  have hsome := failsAt_isSome u s.unread 0 args
  have hdrained := drained_position h
  unfold Restores
  rw [deserialize_eq u h hgood]
  cases hr : unstackAndDeserialize u s.unread 0 args with
  | error e =>
    obtain ⟨start, hstart⟩ := hsome.mp ⟨e, hr⟩
    dsimp only
    rw [hstart, hdrained.1, hdrained.2]
    constructor
    · intro hrestores start' hs
      obtain ⟨_, ⟨⟩, hposition, -⟩ := hrestores e rfl
      cases hs
      omega
    · intro hlast e' _
      have hat := hlast start rfl
      exact ⟨start, rfl, by omega, by simp [hat]⟩
  | ok r =>
    have hnone : ∀ start, failsAt u s.unread 0 args ≠ some start := by
      intro start hs
      obtain ⟨e, he⟩ := hsome.mpr ⟨start, hs⟩
      rw [hr] at he
      cases he
    simp [hnone]

/-- The condition on two streams: one has a byte where the second value fails, the other is at its
end there. -/
theorem restores_second : (¬ Restores fixint (ofBytes [1, 200]) [⟨(), 0⟩, ⟨(), 0⟩]) ∧
    Restores fixint (ofBytes [1]) [⟨(), 0⟩, ⟨(), 0⟩] := by
  have hfirst := over_run [1, 200] []
  have hsecond := over_run [1] []
  refine ⟨fun h => ?_, (restores_iff fixint hsecond rfl _).mpr fun start hs => ?_⟩
  · have hstart := (restores_iff fixint hfirst rfl _).mp h 1 (by decide)
    exact absurd hstart (by decide)
  · have hone : failsAt fixint (ofBytes [1]).unread 0 [⟨(), 0⟩, ⟨(), 0⟩] = some 1 := by decide
    rw [List.foldl_nil, hone] at hs
    cases hs
    decide

/-- A value that fails in front of its bytes: they cannot be read any more. -/
theorem failed_call_drains : ¬ ∀ (s : IByteStream) (args : List (Var fun _ : Unit => Fin 128)),
    Restores fixint s args := by
  intro h
  obtain ⟨start, hstart, -, hunread⟩ := h (ofBytes [200]) [⟨(), 0⟩] () (by decide)
  have hzero : failsAt fixint (ofBytes [200]).unread 0 [⟨(), 0⟩] = some 0 := by decide
  rw [hzero] at hstart
  cases hstart
  exact absurd hunread (by decide)

end Stormancer.Serializer
