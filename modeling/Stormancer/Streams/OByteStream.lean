import Mathlib.Data.List.Flatten
import Stormancer.Streams.Pointers

/-!
# `obytestream`

The stream that is written to: `std::basic_ostream<byte>` over a `bytestreambuf`, with an operator
for each type of value. A value is written as it is in memory, in the byte order of the machine.

The flags of a stream are kept as `good()`: nothing here looks at which of them is set.

Results:
1. `Fixed.ofMemory_memory`: the memory of an integer or a boolean gives its value back.
2. `write_holds`: a write appends its bytes to what the stream holds, also when the buffer grows.
3. `length_bytes_lt`: a stream never gives as many as `2 ^ 31` bytes.
4. `bytes_concatenate`: the bytes of a stream are the concatenation of what was written.
-/

namespace Stormancer.Streams

/-! ## Values -/

/-- The fixed-width integers and the booleans. -/
inductive FixedType
  | char
  | int8
  | uint8
  | int16
  | uint16
  | int32
  | uint32
  | int64
  | uint64
  | bool
deriving DecidableEq

/-- `sizeof(T)`. -/
def FixedType.size : FixedType → Nat
  | .char | .int8 | .uint8 | .bool => 1
  | .int16 | .uint16 => 2
  | .int32 | .uint32 => 4
  | .int64 | .uint64 => 8

inductive Fixed
  | char (value : UInt8)
  | int8 (value : Int8)
  | uint8 (value : UInt8)
  | int16 (value : Int16)
  | uint16 (value : UInt16)
  | int32 (value : Int32)
  | uint32 (value : UInt32)
  | int64 (value : Int64)
  | uint64 (value : UInt64)
  | bool (value : Bool)
deriving DecidableEq

namespace Fixed

def type : Fixed → FixedType
  | char _ => .char
  | int8 _ => .int8
  | uint8 _ => .uint8
  | int16 _ => .int16
  | uint16 _ => .uint16
  | int32 _ => .int32
  | uint32 _ => .uint32
  | int64 _ => .int64
  | uint64 _ => .uint64
  | bool _ => .bool

/-- The bits of a value, as a number. -/
def bits : Fixed → Nat
  | char v => v.toNat
  | int8 v => v.toUInt8.toNat
  | uint8 v => v.toNat
  | int16 v => v.toUInt16.toNat
  | uint16 v => v.toNat
  | int32 v => v.toUInt32.toNat
  | uint32 v => v.toNat
  | int64 v => v.toUInt64.toNat
  | uint64 v => v.toNat
  | bool v => v.toNat

/-- The value of a type that has the bits. A `bool` is true unless all bits are 0. -/
def ofBits (n : Nat) : FixedType → Fixed
  | .char => char (UInt8.ofNat n)
  | .int8 => int8 (UInt8.ofNat n).toInt8
  | .uint8 => uint8 (UInt8.ofNat n)
  | .int16 => int16 (UInt16.ofNat n).toInt16
  | .uint16 => uint16 (UInt16.ofNat n)
  | .int32 => int32 (UInt32.ofNat n).toInt32
  | .uint32 => uint32 (UInt32.ofNat n)
  | .int64 => int64 (UInt64.ofNat n).toInt64
  | .uint64 => uint64 (UInt64.ofNat n)
  | .bool => bool (n ≠ 0)

/-- The bytes of a value in memory. -/
def memory (order : Bytes.Order) (v : Fixed) : List UInt8 :=
  Bytes.ofNat order v.type.size v.bits

/-- The value of a variable of the type with these bytes. -/
def ofMemory (order : Bytes.Order) (t : FixedType) (bytes : List UInt8) : Fixed :=
  ofBits (Bytes.toNat order bytes) t

@[simp] theorem length_memory (order : Bytes.Order) (v : Fixed) :
    (v.memory order).length = v.type.size :=
  Bytes.length_ofNat order v.type.size v.bits

theorem bits_lt (v : Fixed) : v.bits < 256 ^ v.type.size := by
  cases v with
  | char v | uint8 v => exact v.toNat_lt
  | uint16 v | uint32 v | uint64 v => exact v.toNat_lt
  | int8 v => exact v.toUInt8.toNat_lt
  | int16 v => exact v.toUInt16.toNat_lt
  | int32 v => exact v.toUInt32.toNat_lt
  | int64 v => exact v.toUInt64.toNat_lt
  | bool v => cases v <;> decide

theorem ofBits_bits (v : Fixed) : ofBits v.bits v.type = v := by
  cases v with
  | bool v => cases v <;> rfl
  | _ v => simp [ofBits, bits, type]

/-- The memory of a value gives it back. -/
theorem ofMemory_memory (order : Bytes.Order) (v : Fixed) :
    ofMemory order v.type (v.memory order) = v := by
  unfold ofMemory memory
  rw [Bytes.toNat_ofNat order v.bits_lt, ofBits_bits]

/-- A byte is in memory as it is. -/
theorem memory_uint8 (order : Bytes.Order) (v : UInt8) : (uint8 v).memory order = [v] := by
  cases order <;> simp [memory, type, bits, FixedType.size, Bytes.ofNat, Bytes.ofNatLE]

/-- The memory of a value replaces all of a variable of its type. -/
theorem overwrite_memory {order : Bytes.Order} {value v : Fixed} (h : value.type = v.type) :
    Bytes.overwrite (value.memory order) 0 (v.memory order) = v.memory order :=
  Bytes.overwrite_whole (by rw [length_memory, length_memory, h])

end Fixed

/-- The values that have an operator. A floating point number is given by its bits. -/
inductive Scalar
  | fixed (value : Fixed)
  | float (bits : UInt32)
  | double (bits : UInt64)
  | pointer (address : Nat)

/-- What the bytes of a value depend on: the byte order and the size of a pointer. -/
structure Machine where
  order : Bytes.Order
  pointerSize : Nat

def Scalar.memory (m : Machine) : Scalar → List UInt8
  | .fixed value => value.memory m.order
  | .float bits => Bytes.ofNat m.order 4 bits.toNat
  | .double bits => Bytes.ofNat m.order 8 bits.toNat
  | .pointer address => Bytes.ofNat m.order m.pointerSize address

/-! ## The stream -/

structure OByteStream where
  buffer : ByteStreamBuf
  /-- `good()`. -/
  good : Bool

namespace OByteStream

/-- `obytestream::obytestream()`. -/
def create : OByteStream := ⟨ByteStreamBuf.create [] true, true⟩

/-- `obytestream::write`: `std::basic_ostream<byte>::write`. -/
def write (s : OByteStream) (data : List UInt8) : OByteStream :=
  if s.good then
    { buffer := (s.buffer.xsputn data).2, good := (s.buffer.xsputn data).1 = data.length }
  else s

/-- `serialize`, with the memory of the value. -/
def serialize (s : OByteStream) (memory : List UInt8) : OByteStream :=
  if s.good then s.write memory else s

/-- `obytestream::operator<<` for a value. -/
def writeScalar (m : Machine) (s : OByteStream) (value : Scalar) : OByteStream :=
  s.serialize (value.memory m)

/-- `obytestream::operator<<(const std::vector<byte>&)`. -/
def writeVector (s : OByteStream) (bytes : List UInt8) : OByteStream :=
  if s.good then s.write bytes else s

/-- `obytestream::currentPosition`. -/
def currentPosition (s : OByteStream) : Int := s.buffer.currentWritePosition

/-- `obytestream::bytes`. It throws when the position is negative. -/
def bytes (s : OByteStream) : Option (List UInt8) :=
  if s.good then
    if s.currentPosition < 0 then none
    else some (s.buffer.copy s.buffer.putArea.first s.currentPosition)
  else some []

/-- A write to a stream. -/
inductive Write
  | block (data : List UInt8)
  | value (scalar : Scalar)
  | vector (data : List UInt8)

/-- The bytes that are given to the stream. -/
def Write.data (m : Machine) : Write → List UInt8
  | .block data => data
  | .value scalar => scalar.memory m
  | .vector data => data

def apply (m : Machine) (s : OByteStream) : Write → OByteStream
  | .block data => s.write data
  | .value scalar => s.writeScalar m scalar
  | .vector data => s.writeVector data

/-- The stream after the writes, in order. -/
def run (m : Machine) (s : OByteStream) (writes : List Write) : OByteStream :=
  writes.foldl (apply m) s

/-- The concatenation of what is given to the stream. -/
def written (m : Machine) (writes : List Write) : List UInt8 := writes.flatMap (Write.data m)

/-! ## What a stream holds -/

/-- The stream is good and holds the data, which ends at an offset that is an `int`. -/
structure Holds (s : OByteStream) (data : List UInt8) : Prop where
  good : s.good = true
  sound : s.buffer.PutSound
  dynamic : s.buffer.dynamic = true
  next : s.buffer.putArea.next = data.length
  memory : (s.buffer.memory.getD []).take s.buffer.putArea.next.toNat = data

namespace OByteStreamLemmas

open ByteStreamBuf ByteStreamBuf.PointersLemmas

variable {m : Machine} {s : OByteStream} {data : List UInt8}

theorem apply_eq (m : Machine) (s : OByteStream) (w : Write) : apply m s w = s.write (w.data m) := by
  have hgood : ∀ bytes, (if s.good then s.write bytes else s) = s.write bytes := by
    intro bytes
    unfold write
    split <;> rfl
  cases w with
  | block data => rfl
  | value scalar => exact hgood _
  | vector data => exact hgood _

theorem create_holds : create.Holds [] :=
  ⟨rfl, (inv_create [] true).put, rfl, rfl, rfl⟩

/-- A write appends its bytes, also when the buffer grows. -/
theorem write_holds (h : s.Holds data) (bytes : List UInt8)
    (hsmall : data.length + bytes.length < 0x80000000) : (s.write bytes).Holds (data ++ bytes) := by
  have haccepted : s.buffer.accepted bytes = bytes.length := if_pos h.dynamic
  have hnext := h.next
  unfold write
  rw [if_pos h.good]
  rcases xsputn_spec h.sound bytes (by omega) with ⟨hnone, hsame⟩ | ⟨-, hcount, hwrote⟩
  · have hempty : bytes = [] := List.eq_nil_of_length_eq_zero (by omega)
    rw [hsame, hempty, List.append_nil]
    exact ⟨rfl, h.sound, h.dynamic, hnext, h.memory⟩
  · rw [haccepted, Int.toNat_natCast, List.take_length] at hwrote
    refine ⟨?_, hwrote.sound, hwrote.dynamic.trans h.dynamic, ?_, ?_⟩
    · rw [hcount, haccepted]
      exact decide_eq_true rfl
    · rw [hwrote.next, hnext, List.length_append, Nat.cast_add]
    · exact hwrote.memory.trans (congrArg (· ++ bytes) h.memory)

theorem run_holds {writes : List Write} (h : s.Holds data)
    (hsmall : data.length + (written m writes).length < 0x80000000) :
    (s.run m writes).Holds (data ++ written m writes) := by
  induction writes generalizing s data with
  | nil =>
    rw [written, List.flatMap_nil, List.append_nil]
    exact h
  | cons w rest ih =>
    have hsplit : written m (w :: rest) = w.data m ++ written m rest := List.flatMap_cons
    rw [hsplit, List.length_append] at hsmall
    have hstep := write_holds h (w.data m) (by omega)
    rw [run, List.foldl_cons, apply_eq, hsplit, ← List.append_assoc]
    exact ih hstep (by rw [List.length_append]; omega)

theorem run_create_holds {writes : List Write} (hsmall : (written m writes).length < 0x80000000) :
    (create.run m writes).Holds (written m writes) :=
  run_holds create_holds (by simpa using hsmall)

theorem bytes_of_holds (h : s.Holds data) : s.bytes = some data := by
  have hnonneg := h.sound.next_nonneg
  have hposition : s.currentPosition = data.length := by
    unfold currentPosition currentWritePosition
    have hnext := h.next
    have hlength := h.sound.length
    have hle := h.sound.next_le
    unfold isAllocated
    cases hm : s.buffer.memory with
    | none =>
      simp only [hm, Option.getD_none, List.length_nil] at hlength
      simp only [Option.isSome_none, Bool.false_eq_true, if_false]
      omega
    | some memory =>
      rw [Option.isSome_some, if_pos rfl, h.sound.putFirst]
      omega
  have hnext := h.next
  have hmemory := h.memory
  unfold bytes copy
  rw [if_pos h.good, if_neg (by omega), hposition, h.sound.putFirst]
  rw [hnext] at hmemory
  exact congrArg some hmemory

/-! ### The put position -/

/-- The put position is an `int`, also where the size of the data is not. -/
structure PutInt (b : ByteStreamBuf) : Prop where
  first : b.putArea.first = 0
  next : b.putArea.next < 0x80000000

theorem putInt_init (size : Int) : PutInt (init size) := by
  have hzero : (0 : Int) < 0x80000000 := by decide
  unfold init
  split
  · exact ⟨rfl, hzero⟩
  · exact ⟨rfl, hzero⟩

theorem putInt_grow {b : ByteStreamBuf} (h : PutInt b) (minSize : Int) :
    PutInt (b.grow minSize) := by
  unfold grow
  split
  · dsimp only
    generalize (if b.isAllocated then b.putArea.last - b.putArea.first else 0) = oldSize
    have hinit := putInt_init (grownSize oldSize minSize)
    have hfirst := hinit.first
    have hlt := toInt_lt (b.putArea.next - b.putArea.first)
    split
    · refine ⟨hfirst, ?_⟩
      dsimp only [setg, pbump, setp]
      omega
    · exact ⟨hfirst, hinit.next⟩
  · exact h

theorem putInt_store {b : ByteStreamBuf} (h : PutInt b) (data : List UInt8) :
    PutInt (b.store data) := by
  have hfirst := h.first
  have hlt := toInt_lt (b.putArea.next + data.length - b.putArea.first)
  unfold store updateReadAfterWrite
  dsimp only
  split
  · refine ⟨hfirst, ?_⟩
    dsimp only [setg, pbump, setp]
    omega
  · refine ⟨hfirst, ?_⟩
    dsimp only [setg, pbump, setp]
    omega

theorem putInt_xsputn {b : ByteStreamBuf} (h : PutInt b) (data : List UInt8) :
    PutInt (b.xsputn data).2 := by
  have hreserve : PutInt (b.reserve data.length) := by
    unfold reserve
    split
    · exact putInt_grow h _
    · exact h
  unfold xsputn
  split
  · dsimp only
    split
    · exact putInt_store hreserve _
    · exact hreserve
  · exact h

theorem putInt_run (h : PutInt s.buffer) (writes : List Write) :
    PutInt (s.run m writes).buffer := by
  induction writes generalizing s with
  | nil => exact h
  | cons w rest ih =>
    rw [run, List.foldl_cons]
    refine ih ?_
    rw [apply_eq]
    unfold write
    split
    · exact putInt_xsputn h _
    · exact h

/-- However much is written, the bytes of the stream are fewer than `2 ^ 31`. -/
theorem length_bytes_lt {writes : List Write} {bytes : List UInt8}
    (h : (create.run m writes).bytes = some bytes) : bytes.length < 0x80000000 := by
  have hput : PutInt (create.run m writes).buffer := putInt_run (putInt_init 0) writes
  have hposition : (create.run m writes).currentPosition < 0x80000000 := by
    have hfirst := hput.first
    have hnext := hput.next
    unfold currentPosition currentWritePosition
    split <;> omega
  unfold OByteStream.bytes copy at h
  split at h
  · split at h
    · cases h
    · cases h
      rw [List.length_take]
      omega
  · cases h
    decide

end OByteStreamLemmas

open OByteStreamLemmas

/-! ## Concatenation -/

/-- The bytes of a stream are the concatenation of what was written to it, across every growth of
the buffer. -/
theorem bytes_concatenate (m : Machine) (writes : List Write)
    (hsmall : (written m writes).length < 0x80000000) :
    (create.run m writes).bytes = some (written m writes) := by
  have h : (create.run m writes).Holds (written m writes) := run_create_holds hsmall
  exact bytes_of_holds h

theorem bytes_concatenate_across_growth :
    (create.run ⟨.little, 8⟩ [.block (List.replicate 31 7), .value (.fixed (.int32 (-2)))]).bytes =
      some (List.replicate 31 7 ++ [0xfe, 0xff, 0xff, 0xff]) := by
  refine (bytes_concatenate ⟨.little, 8⟩
    [.block (List.replicate 31 7), .value (.fixed (.int32 (-2)))] (by decide +kernel)).trans ?_
  decide +kernel

end OByteStream
end Stormancer.Streams
