import Stormancer.Lib.Bytes

/-!
# The objects of MessagePack

An object starts with a byte that says what follows: nothing, the bytes of a number, a body with
its number of bytes, or the objects of an array or a map with their number. Objects are read from
the front of a list of bytes. An object inside of another one takes part of its bytes, so the
length of the list bounds the depth.

Results:
1. `encodes_packUInt`, `encodes_packInt`, `encodes_packStr`, `encodes_packBin`,
   `encodes_packArray`, `encodes_packMap`: what is packed is read back, whatever follows.
2. `unpack_of_encodes`: the object and the number of its bytes.
3. `parse_extends`: more bytes behind an object, or behind bytes that are no object, change nothing.
4. `unpack_truncated`: an object whose last bytes are missing is not read.
-/

namespace Msgpack

/-! ## Definitions -/

/-- Why an object is not read or not converted. -/
inductive Error
  | insufficientBytes
  | parseError
  | typeError
  /-- The key of a pair is no text but is read as one. -/
  | undefinedKey
deriving DecidableEq, Repr

inductive Object
  | nil
  | boolean (value : Bool)
  | positiveInteger (value : Nat)
  | negativeInteger (value : Int)
  /-- The bits of a number of `w` bytes. -/
  | float (w bits : Nat)
  | str (data : List UInt8)
  | bin (data : List UInt8)
  /-- The first byte of the data is the type. -/
  | ext (data : List UInt8)
  | array (items : List Object)
  | map (pairs : List (Object × Object))

/-- What follows the first byte of an object. Sizes are in `w` bytes. -/
inductive Trail
  | invalid
  | nil
  | boolean (value : Bool)
  | positive (value : Nat)
  | negative (value : Int)
  | unsigned (w : Nat)
  | signed (w : Nat)
  | float (w : Nat)
  | fixStr (n : Nat)
  | str (w : Nat)
  | bin (w : Nat)
  | fixExt (n : Nat)
  | ext (w : Nat)
  | fixArray (n : Nat)
  | array (w : Nat)
  | fixMap (n : Nat)
  | map (w : Nat)
deriving DecidableEq

/-- The integer whose `w` bytes in two's complement are the number. -/
def signed (w n : Nat) : Int := if 2 * n < 256 ^ w then n else (n : Int) - 256 ^ w

/-- The formats, by the first byte. -/
def trail (header : UInt8) : Trail :=
  if header ≤ 0x7f then .positive header.toNat
  else if 0xe0 ≤ header then .negative (signed 1 header.toNat)
  else if header ≤ 0x8f then .fixMap (header &&& 0x0f).toNat
  else if header ≤ 0x9f then .fixArray (header &&& 0x0f).toNat
  else if header ≤ 0xbf then .fixStr (header &&& 0x1f).toNat
  else
    match header with
    | 0xc0 => .nil
    | 0xc2 => .boolean false
    | 0xc3 => .boolean true
    | 0xc4 => .bin 1
    | 0xc5 => .bin 2
    | 0xc6 => .bin 4
    | 0xc7 => .ext 1
    | 0xc8 => .ext 2
    | 0xc9 => .ext 4
    | 0xca => .float 4
    | 0xcb => .float 8
    | 0xcc => .unsigned 1
    | 0xcd => .unsigned 2
    | 0xce => .unsigned 4
    | 0xcf => .unsigned 8
    | 0xd0 => .signed 1
    | 0xd1 => .signed 2
    | 0xd2 => .signed 4
    | 0xd3 => .signed 8
    | 0xd4 => .fixExt 2
    | 0xd5 => .fixExt 3
    | 0xd6 => .fixExt 5
    | 0xd7 => .fixExt 9
    | 0xd8 => .fixExt 17
    | 0xd9 => .str 1
    | 0xda => .str 2
    | 0xdb => .str 4
    | 0xdc => .array 2
    | 0xdd => .array 4
    | 0xde => .map 2
    | 0xdf => .map 4
    | _ => .invalid

/-- What a reader gives, and the bytes that it leaves. -/
abbrev Reader (α : Type) := List UInt8 → Except Error (α × List UInt8)

/-- Reads with `p`, and goes on with what it gave. -/
def Reader.andThen {α β : Type} (p : Reader α) (f : α → Reader β) : Reader β := fun bytes =>
  match p bytes with
  | .error e => .error e
  | .ok (x, rest) => f x rest

def Reader.done {α : Type} (x : α) : Reader α := fun bytes => .ok (x, bytes)

def Reader.map {α β : Type} (p : Reader α) (f : α → β) : Reader β :=
  p.andThen fun x => .done (f x)

/-- The next `n` bytes. -/
def readBody (n : Nat) : Reader (List UInt8) := fun bytes =>
  if n ≤ bytes.length then .ok (bytes.take n, bytes.drop n) else .error .insufficientBytes

/-- The number in the next `w` bytes. -/
def readSize (w : Nat) : Reader Nat := (readBody w).map (Bytes.toNat .big)

/-- The next `n` objects, each read with `p`. -/
def readItems {α : Type} (p : Reader α) : Nat → Reader (List α)
  | 0 => .done []
  | n + 1 => p.andThen fun x => (readItems p n).map (x :: ·)

/-- A key and its value. -/
def readPair {α : Type} (p : Reader α) : Reader (α × α) := p.andThen fun k => p.map (k, ·)

/-- What follows the first byte, with the reader of the objects inside. -/
def readTrail (p : Reader Object) : Trail → Reader Object
  | .invalid => fun _ => .error .parseError
  | .nil => .done .nil
  | .boolean value => .done (.boolean value)
  | .positive value => .done (.positiveInteger value)
  | .negative value => .done (.negativeInteger value)
  | .unsigned w => (readSize w).map .positiveInteger
  | .signed w => (readSize w).map fun n =>
    if 2 * n < 256 ^ w then .positiveInteger n else .negativeInteger (signed w n)
  | .float w => (readSize w).map (.float w)
  | .fixStr n => (readBody n).map .str
  | .str w => (readSize w).andThen fun n => (readBody n).map .str
  | .bin w => (readSize w).andThen fun n => (readBody n).map .bin
  | .fixExt n => (readBody n).map .ext
  | .ext w => (readSize w).andThen fun n => (readBody (n + 1)).map .ext
  | .fixArray n => (readItems p n).map .array
  | .array w => (readSize w).andThen fun n => (readItems p n).map .array
  | .fixMap n => (readItems (readPair p) n).map .map
  | .map w => (readSize w).andThen fun n => (readItems (readPair p) n).map .map

/-- The first object, at most `depth` deep. -/
def parse : Nat → Reader Object
  | 0 => fun _ => .error .insufficientBytes
  | depth + 1 => fun bytes =>
    match bytes with
    | [] => .error .insufficientBytes
    | header :: rest => readTrail (parse depth) (trail header) rest

/-- The first object, and the number of its bytes. -/
def unpack (bytes : List UInt8) : Except Error (Object × Nat) :=
  match parse bytes.length bytes with
  | .error e => .error e
  | .ok (o, rest) => .ok (o, bytes.length - rest.length)

/-! ### Packing -/

/-- The smallest format for a number. -/
def packUInt (n : Nat) : List UInt8 :=
  if n < 0x80 then [UInt8.ofNat n]
  else if n < 0x100 then 0xcc :: Bytes.ofNat .big 1 n
  else if n < 0x10000 then 0xcd :: Bytes.ofNat .big 2 n
  else if n < 0x100000000 then 0xce :: Bytes.ofNat .big 4 n
  else 0xcf :: Bytes.ofNat .big 8 n

/-- The number whose `w` bytes are those of the integer in two's complement. -/
def unsigned (w : Nat) (z : Int) : Nat := (z % 256 ^ w).toNat

def packInt (z : Int) : List UInt8 :=
  if 0 ≤ z then packUInt z.toNat
  else if -32 ≤ z then [UInt8.ofNat (unsigned 1 z)]
  else if -0x80 ≤ z then 0xd0 :: Bytes.ofNat .big 1 (unsigned 1 z)
  else if -0x8000 ≤ z then 0xd1 :: Bytes.ofNat .big 2 (unsigned 2 z)
  else if -0x80000000 ≤ z then 0xd2 :: Bytes.ofNat .big 4 (unsigned 4 z)
  else 0xd3 :: Bytes.ofNat .big 8 (unsigned 8 z)

def packBool (b : Bool) : List UInt8 := if b then [0xc3] else [0xc2]

def packNil : List UInt8 := [0xc0]

/-- The header of a string of `n` bytes. -/
def strHeader (n : Nat) : List UInt8 :=
  if n < 32 then [UInt8.ofNat (0xa0 + n)]
  else if n < 0x100 then 0xd9 :: Bytes.ofNat .big 1 n
  else if n < 0x10000 then 0xda :: Bytes.ofNat .big 2 n
  else 0xdb :: Bytes.ofNat .big 4 n

def packStr (data : List UInt8) : List UInt8 := strHeader data.length ++ data

def packBin (data : List UInt8) : List UInt8 :=
  (if data.length < 0x100 then 0xc4 :: Bytes.ofNat .big 1 data.length
    else if data.length < 0x10000 then 0xc5 :: Bytes.ofNat .big 2 data.length
    else 0xc6 :: Bytes.ofNat .big 4 data.length) ++ data

/-- The header of an array of `n` objects. -/
def arrayHeader (n : Nat) : List UInt8 :=
  if n < 16 then [UInt8.ofNat (0x90 + n)]
  else if n < 0x10000 then 0xdc :: Bytes.ofNat .big 2 n
  else 0xdd :: Bytes.ofNat .big 4 n

/-- The header of a map of `n` pairs. -/
def mapHeader (n : Nat) : List UInt8 :=
  if n < 16 then [UInt8.ofNat (0x80 + n)]
  else if n < 0x10000 then 0xde :: Bytes.ofNat .big 2 n
  else 0xdf :: Bytes.ofNat .big 4 n

/-- The bytes are those of the object: it is read from them, whatever follows, and nothing of what
follows is taken. -/
def Encodes (bytes : List UInt8) (o : Object) : Prop :=
  ∀ rest depth, bytes.length ≤ depth → parse depth (bytes ++ rest) = .ok (o, rest)

/-! ## Readers -/

@[simp] theorem Reader.andThen_ok {α β : Type} {p : Reader α} {bytes rest : List UInt8} {x : α}
    (h : p bytes = .ok (x, rest)) (f : α → Reader β) : p.andThen f bytes = f x rest := by
  unfold andThen
  rw [h]

theorem Reader.map_ok {α β : Type} {p : Reader α} {bytes rest : List UInt8} {x : α}
    (h : p bytes = .ok (x, rest)) (f : α → β) : p.map f bytes = .ok (f x, rest) := by
  unfold map
  rw [andThen_ok h]
  rfl

theorem readBody_append (data rest : List UInt8) :
    readBody data.length (data ++ rest) = .ok (data, rest) := by
  unfold readBody
  rw [if_pos (by simp), List.take_left, List.drop_left]

theorem readSize_append {w n : Nat} (h : n < 256 ^ w) (rest : List UInt8) :
    readSize w (Bytes.ofNat .big w n ++ rest) = .ok (n, rest) := by
  have hbody := readBody_append (Bytes.ofNat .big w n) rest
  rw [Bytes.length_ofNat] at hbody
  unfold readSize
  rw [Reader.map_ok hbody, Bytes.toNat_ofNat _ h]

/-- Objects one after the other, each of which is read from its bytes. -/
theorem readItems_flatMap {α β : Type} {p : Reader α} {bytes : β → List UInt8} {value : β → α}
    {xs : List β} (h : ∀ x ∈ xs, ∀ rest, p (bytes x ++ rest) = .ok (value x, rest))
    (rest : List UInt8) :
    readItems p xs.length (xs.flatMap bytes ++ rest) = .ok (xs.map value, rest) := by
  induction xs with
  | nil => rfl
  | cons x xs ih =>
    have hfirst := h x List.mem_cons_self (xs.flatMap bytes ++ rest)
    have hrest := ih fun y hy => h y (List.mem_cons_of_mem _ hy)
    rw [List.flatMap_cons, List.append_assoc, List.length_cons, readItems,
      Reader.andThen_ok hfirst, Reader.map_ok hrest]
    rfl

/-! ## Formats -/

theorem trail_positive {n : Nat} (h : n < 0x80) : trail (UInt8.ofNat n) = .positive n := by
  revert n
  decide

theorem trail_fixArray {n : Nat} (h : n < 16) : trail (UInt8.ofNat (0x90 + n)) = .fixArray n := by
  revert n
  decide

theorem trail_fixMap {n : Nat} (h : n < 16) : trail (UInt8.ofNat (0x80 + n)) = .fixMap n := by
  revert n
  decide

theorem trail_fixStr {n : Nat} (h : n < 32) : trail (UInt8.ofNat (0xa0 + n)) = .fixStr n := by
  revert n
  decide

theorem trail_negative {n : Nat} (h : 224 ≤ n) (h' : n < 256) :
    trail (UInt8.ofNat n) = .negative ((n : Int) - 256) := by
  have all : ∀ k < 32, trail (UInt8.ofNat (224 + k)) = .negative ((224 + k : Nat) - 256 : Int) := by
    decide
  obtain ⟨k, rfl⟩ := Nat.exists_eq_add_of_le h
  exact all k (by omega)

theorem signed_unsigned {w : Nat} {z : Int} (hlow : -(256 ^ w : Int) ≤ 2 * z) (hneg : z < 0) :
    ¬ 2 * unsigned w z < 256 ^ w ∧ signed w (unsigned w z) = z := by
  have hpos : (0 : Int) < 256 ^ w := Int.pow_pos (by decide)
  have hmod : z % 256 ^ w = z + 256 ^ w := by
    rw [← Int.add_emod_right, Int.emod_eq_of_lt (by omega) (by omega)]
  have hunsigned : ((unsigned w z : Nat) : Int) = z + 256 ^ w := by
    unfold unsigned
    rw [hmod, Int.toNat_of_nonneg (by omega)]
  have hlarge : ¬ 2 * unsigned w z < 256 ^ w := by
    intro hlt
    have hcast : (2 : Int) * (unsigned w z : Nat) < 256 ^ w := by exact_mod_cast hlt
    omega
  refine ⟨hlarge, ?_⟩
  unfold signed
  rw [if_neg hlarge, hunsigned]
  omega

theorem unsigned_lt (w : Nat) (z : Int) : unsigned w z < 256 ^ w := by
  have hpos : (0 : Int) < 256 ^ w := Int.pow_pos (by decide)
  have hlt := Int.emod_lt_of_pos z hpos
  have hnonneg := Int.emod_nonneg z hpos.ne'
  unfold unsigned
  have hcast : ((z % 256 ^ w).toNat : Int) < (256 ^ w : Nat) := by
    rw [Int.toNat_of_nonneg hnonneg]
    exact_mod_cast hlt
  exact_mod_cast hcast

/-! ## The round trips -/

/-- An object from what follows its first byte. -/
theorem encodes_cons {header : UInt8} {body : List UInt8} {o : Object}
    (h : ∀ rest depth, body.length ≤ depth →
      readTrail (parse depth) (trail header) (body ++ rest) = .ok (o, rest)) :
    Encodes (header :: body) o := by
  intro rest depth hdepth
  rw [List.length_cons] at hdepth
  cases depth with
  | zero => omega
  | succ depth => exact h rest depth (by omega)

theorem encodes_packUInt {n : Nat} (h : n < 256 ^ 8) :
    Encodes (packUInt n) (.positiveInteger n) := by
  have sized : ∀ {header : UInt8} {w : Nat}, trail header = .unsigned w → n < 256 ^ w →
      Encodes (header :: Bytes.ofNat .big w n) (.positiveInteger n) := by
    intro header w htrail hn
    refine encodes_cons fun rest depth _ => ?_
    rw [htrail]
    exact Reader.map_ok (readSize_append hn rest) _
  unfold packUInt
  split
  · next hn =>
    refine encodes_cons fun rest depth _ => ?_
    rw [trail_positive hn]
    rfl
  · split
    · next hn => exact sized rfl hn
    · split
      · next hn => exact sized rfl hn
      · split
        · next hn => exact sized rfl hn
        · exact sized rfl h

/-- What an integer is read as. -/
def intObject (z : Int) : Object :=
  if 0 ≤ z then .positiveInteger z.toNat else .negativeInteger z

theorem encodes_packInt {z : Int} (hlow : -(256 ^ 8 : Int) ≤ 2 * z) (hhigh : z < 256 ^ 8) :
    Encodes (packInt z) (intObject z) := by
  unfold packInt intObject
  split
  · next hz =>
    refine encodes_packUInt ?_
    rw [← Int.ofNat_lt, Int.toNat_of_nonneg hz]
    exact_mod_cast hhigh
  · next hz =>
    have hneg : z < 0 := by omega
    have sized : ∀ {header : UInt8} {w : Nat}, trail header = .signed w →
        -(256 ^ w : Int) ≤ 2 * z →
        Encodes (header :: Bytes.ofNat .big w (unsigned w z)) (.negativeInteger z) := by
      intro header w htrail hw
      obtain ⟨hlarge, hsigned⟩ := signed_unsigned hw hneg
      refine encodes_cons fun rest depth _ => ?_
      rw [htrail, readTrail, Reader.map_ok (readSize_append (unsigned_lt w z) rest), if_neg hlarge,
        hsigned]
    split
    · have hnat : 224 ≤ unsigned 1 z ∧ unsigned 1 z < 256 ∧
          ((unsigned 1 z : Nat) : Int) - 256 = z := by
        unfold unsigned
        omega
      refine encodes_cons fun rest depth _ => ?_
      rw [trail_negative hnat.1 hnat.2.1, hnat.2.2]
      rfl
    · split
      · exact sized rfl (by omega)
      · split
        · exact sized rfl (by omega)
        · split
          · exact sized rfl (by omega)
          · exact sized rfl hlow

theorem encodes_packBool (b : Bool) : Encodes (packBool b) (.boolean b) := by
  cases b <;> exact encodes_cons fun rest depth _ => rfl

theorem encodes_packNil : Encodes packNil .nil := encodes_cons fun _ _ _ => rfl

/-- A body behind a header with its size. -/
theorem readSized_append {w : Nat} {data : List UInt8} (h : data.length < 256 ^ w)
    (f : List UInt8 → Object) (rest : List UInt8) :
    (readSize w).andThen (fun n => (readBody n).map f)
      (Bytes.ofNat .big w data.length ++ data ++ rest) = .ok (f data, rest) := by
  rw [List.append_assoc, Reader.andThen_ok (readSize_append h _),
    Reader.map_ok (readBody_append data rest)]

theorem encodes_packStr {data : List UInt8} (h : data.length < 0x100000000) :
    Encodes (packStr data) (.str data) := by
  have sized : ∀ {header : UInt8} {w : Nat}, trail header = .str w → data.length < 256 ^ w →
      Encodes (header :: Bytes.ofNat .big w data.length ++ data) (.str data) := by
    intro header w htrail hn
    refine encodes_cons fun rest depth _ => ?_
    rw [htrail]
    exact readSized_append hn _ rest
  unfold packStr strHeader
  split
  · next hn =>
    refine encodes_cons fun rest depth _ => ?_
    rw [trail_fixStr hn]
    exact Reader.map_ok (readBody_append data rest) _
  · split
    · next hn => exact sized rfl hn
    · split
      · next hn => exact sized rfl hn
      · exact sized rfl h

theorem encodes_packBin {data : List UInt8} (h : data.length < 0x100000000) :
    Encodes (packBin data) (.bin data) := by
  have sized : ∀ {header : UInt8} {w : Nat}, trail header = .bin w → data.length < 256 ^ w →
      Encodes (header :: Bytes.ofNat .big w data.length ++ data) (.bin data) := by
    intro header w htrail hn
    refine encodes_cons fun rest depth _ => ?_
    rw [htrail]
    exact readSized_append hn _ rest
  unfold packBin
  split
  · next hn => exact sized rfl hn
  · split
    · next hn => exact sized rfl hn
    · exact sized rfl h

/-- Objects in a container: each has its bytes, and fewer than the container. -/
theorem readItems_encodes {α : Type} {bytes : α → List UInt8} {object : α → Object} {xs : List α}
    (h : ∀ x ∈ xs, Encodes (bytes x) (object x)) {depth : Nat}
    (hdepth : (xs.flatMap bytes).length ≤ depth) (rest : List UInt8) :
    readItems (parse depth) xs.length (xs.flatMap bytes ++ rest) = .ok (xs.map object, rest) := by
  refine readItems_flatMap (fun x hx rest => h x hx rest depth ?_) rest
  have hpart := List.Sublist.length_le
    (List.sublist_flatten_of_mem (List.mem_map_of_mem (f := bytes) hx))
  rw [← List.flatMap_def] at hpart
  omega

theorem readPairs_encodes {α : Type} {key value : α → List UInt8} {keyObject object : α → Object}
    {xs : List α} (hkey : ∀ x ∈ xs, Encodes (key x) (keyObject x))
    (hvalue : ∀ x ∈ xs, Encodes (value x) (object x)) {depth : Nat}
    (hdepth : (xs.flatMap fun x => key x ++ value x).length ≤ depth) (rest : List UInt8) :
    readItems (readPair (parse depth)) xs.length
        ((xs.flatMap fun x => key x ++ value x) ++ rest) =
      .ok (xs.map fun x => (keyObject x, object x), rest) := by
  refine readItems_flatMap (fun x hx rest => ?_) rest
  have hpart := List.Sublist.length_le
    (List.sublist_flatten_of_mem (List.mem_map_of_mem (f := fun x => key x ++ value x) hx))
  rw [← List.flatMap_def, List.length_append] at hpart
  unfold readPair
  rw [List.append_assoc, Reader.andThen_ok (hkey x hx _ depth (by omega)),
    Reader.map_ok (hvalue x hx _ depth (by omega))]

theorem encodes_packArray {α : Type} {bytes : α → List UInt8} {object : α → Object} {xs : List α}
    (hlen : xs.length < 0x100000000) (h : ∀ x ∈ xs, Encodes (bytes x) (object x)) :
    Encodes (arrayHeader xs.length ++ xs.flatMap bytes) (.array (xs.map object)) := by
  have sized : ∀ {header : UInt8} {w : Nat}, trail header = .array w → xs.length < 256 ^ w →
      Encodes (header :: Bytes.ofNat .big w xs.length ++ xs.flatMap bytes)
        (.array (xs.map object)) := by
    intro header w htrail hn
    rw [List.cons_append]
    refine encodes_cons fun rest depth hdepth => ?_
    rw [List.length_append] at hdepth
    rw [htrail, readTrail, List.append_assoc, Reader.andThen_ok (readSize_append hn _),
      Reader.map_ok (readItems_encodes h (by omega) rest)]
  unfold arrayHeader
  split
  · next hn =>
    refine encodes_cons fun rest depth hdepth => ?_
    rw [trail_fixArray hn]
    exact Reader.map_ok (readItems_encodes h hdepth rest) _
  · split
    · next hn => exact sized rfl hn
    · exact sized rfl hlen

theorem encodes_packMap {α : Type} {key value : α → List UInt8} {keyObject object : α → Object}
    {xs : List α} (hlen : xs.length < 0x100000000)
    (hkey : ∀ x ∈ xs, Encodes (key x) (keyObject x))
    (hvalue : ∀ x ∈ xs, Encodes (value x) (object x)) :
    Encodes (mapHeader xs.length ++ xs.flatMap fun x => key x ++ value x)
      (.map (xs.map fun x => (keyObject x, object x))) := by
  have sized : ∀ {header : UInt8} {w : Nat}, trail header = .map w → xs.length < 256 ^ w →
      Encodes (header :: Bytes.ofNat .big w xs.length ++ xs.flatMap fun x => key x ++ value x)
        (.map (xs.map fun x => (keyObject x, object x))) := by
    intro header w htrail hn
    rw [List.cons_append]
    refine encodes_cons fun rest depth hdepth => ?_
    rw [List.length_append] at hdepth
    rw [htrail, readTrail, List.append_assoc, Reader.andThen_ok (readSize_append hn _),
      Reader.map_ok (readPairs_encodes hkey hvalue (by omega) rest)]
  unfold mapHeader
  split
  · next hn =>
    refine encodes_cons fun rest depth hdepth => ?_
    rw [trail_fixMap hn]
    exact Reader.map_ok (readPairs_encodes hkey hvalue hdepth rest) _
  · split
    · next hn => exact sized rfl hn
    · exact sized rfl hlen

theorem unpack_of_encodes {bytes : List UInt8} {o : Object} (h : Encodes bytes o)
    (rest : List UInt8) : unpack (bytes ++ rest) = .ok (o, bytes.length) := by
  unfold unpack
  rw [h rest _ (by simp)]
  simp

theorem Encodes.unique {bytes : List UInt8} {o o' : Object} (h : Encodes bytes o)
    (h' : Encodes bytes o') : o = o' := by
  have hread := h [] bytes.length (le_refl _)
  rw [h' [] bytes.length (le_refl _)] at hread
  cases hread
  rfl

/-! ## Truncated objects -/

/-- What `p` does with some bytes `q` does with more bytes behind them, unless `p` needs more. -/
def Extends {α : Type} (p q : Reader α) : Prop :=
  ∀ bytes more,
    (∀ x rest, p bytes = .ok (x, rest) → q (bytes ++ more) = .ok (x, rest ++ more)) ∧
    ∀ e, p bytes = .error e → e ≠ .insufficientBytes → q (bytes ++ more) = .error e

namespace Extends

variable {α β : Type} {p q : Reader α}

theorem needsBytes (h : ∀ bytes, p bytes = .error .insufficientBytes) : Extends p q := by
  intro bytes more
  rw [h bytes]
  refine ⟨?_, ?_⟩
  · rintro x rest ⟨⟩
  · rintro e ⟨⟩ hne
    exact absurd rfl hne

theorem done (x : α) : Extends (.done x) (.done x) := by
  intro bytes more
  refine ⟨?_, ?_⟩
  · rintro y rest ⟨⟩
    rfl
  · rintro e ⟨⟩

theorem andThen {f g : α → Reader β} (hp : Extends p q) (hf : ∀ x, Extends (f x) (g x)) :
    Extends (p.andThen f) (q.andThen g) := by
  intro bytes more
  obtain ⟨hok, herror⟩ := hp bytes more
  unfold Reader.andThen
  cases hread : p bytes with
  | error e =>
    refine ⟨?_, ?_⟩
    · rintro y rest ⟨⟩
    · rintro e' ⟨⟩ hne
      rw [herror e hread hne]
  | ok r =>
    rw [hok r.1 r.2 hread]
    exact hf r.1 r.2 more

theorem map (hp : Extends p q) (f : α → β) : Extends (p.map f) (q.map f) :=
  hp.andThen fun x => done (f x)

theorem readBody (n : Nat) : Extends (readBody n) (readBody n) := by
  intro bytes more
  unfold Msgpack.readBody
  refine ⟨?_, ?_⟩
  · intro x rest h
    split at h
    · next hle =>
      cases h
      rw [if_pos (by rw [List.length_append]; omega), List.take_append_of_le_length hle,
        List.drop_append_of_le_length hle]
    · cases h
  · intro e h hne
    split at h
    · cases h
    · cases h
      exact absurd rfl hne

theorem readSize (w : Nat) : Extends (readSize w) (readSize w) := (readBody w).map _

theorem readItems (hp : Extends p q) (n : Nat) : Extends (readItems p n) (readItems q n) := by
  induction n with
  | zero => exact done []
  | succ n ih => exact hp.andThen fun x => ih.map _

theorem readPair (hp : Extends p q) : Extends (readPair p) (readPair q) :=
  hp.andThen fun _ => hp.map _

end Extends

theorem extends_readTrail {p q : Reader Object} (hp : Extends p q) (t : Trail) :
    Extends (readTrail p t) (readTrail q t) := by
  cases t with
  | invalid =>
    intro bytes more
    refine ⟨?_, ?_⟩
    · rintro x rest ⟨⟩
    · rintro e ⟨⟩ _
      rfl
  | nil | boolean | positive | negative => exact .done _
  | unsigned w | signed w | float w => exact (Extends.readSize w).map _
  | fixStr n | fixExt n => exact (Extends.readBody n).map _
  | str w | bin w => exact (Extends.readSize w).andThen fun n => (Extends.readBody n).map _
  | ext w => exact (Extends.readSize w).andThen fun n => (Extends.readBody (n + 1)).map _
  | fixArray n => exact (hp.readItems n).map _
  | array w => exact (Extends.readSize w).andThen fun n => (hp.readItems n).map _
  | fixMap n => exact (hp.readPair.readItems n).map _
  | map w => exact (Extends.readSize w).andThen fun n => (hp.readPair.readItems n).map _

/-- A greater bound on the depth and more bytes change nothing. -/
theorem parse_extends {depth depth' : Nat} (h : depth ≤ depth') :
    Extends (parse depth) (parse depth') := by
  induction depth generalizing depth' with
  | zero => exact .needsBytes fun _ => rfl
  | succ depth ih =>
    cases depth' with
    | zero => omega
    | succ depth' =>
      intro bytes more
      cases bytes with
      | nil =>
        exact Extends.needsBytes (p := fun _ => .error .insufficientBytes) (fun _ => rfl) [] more
      | cons header bytes => exact extends_readTrail (ih (by omega)) (trail header) bytes more

/-- An object whose last bytes are missing is not read, and no other object is read instead. -/
theorem unpack_truncated {bytes : List UInt8} {o : Object} (h : Encodes bytes o) {n : Nat}
    (hn : n < bytes.length) : unpack (bytes.take n) = .error .insufficientBytes := by
  have hlength : (bytes.take n).length = n := List.length_take_of_le (by omega)
  have hfull : parse bytes.length (bytes.take n ++ bytes.drop n) = .ok (o, []) := by
    rw [List.take_append_drop]
    simpa using h [] bytes.length (le_refl _)
  obtain ⟨hok, herror⟩ := parse_extends (Nat.le_of_lt hn) (bytes.take n) (bytes.drop n)
  unfold unpack
  rw [hlength]
  cases hparse : parse n (bytes.take n) with
  | error e =>
    by_cases hne : e = .insufficientBytes
    · rw [hne]
    · cases hfull.symm.trans (herror e hparse hne)
  | ok r =>
    -- the bytes that are missing would be left over
    have hleft := hfull.symm.trans (hok r.1 r.2 hparse)
    have hnil : r.2 ++ bytes.drop n = [] := by
      injection hleft with hleft
      exact (Prod.ext_iff.mp hleft).2.symm
    have hdrop := congrArg List.length (List.append_eq_nil_iff.mp hnil).2
    rw [List.length_drop, List.length_nil] at hdrop
    omega

end Msgpack
