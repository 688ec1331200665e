import Mathlib.Data.Int.Order.Basic
import Stormancer.Lib.Bytes

/-!
# `bytestreambuf`

The stream buffer with its get area and its put area, and the functions of
`std::basic_streambuf<byte>` over it (`sputc`, `sgetc`, `sbumpc`, `sungetc`, `sputbackc`,
`in_avail`; `sputn`, `sgetn` and the functions that begin with `pub` only call the buffer's own).

Both areas are in one block of memory. A pointer is its offset from the start of the block; the
offsets are integers, so that a pointer may leave its area. When `memory` is `none`, the six
pointers are null and their offsets are 0. An access outside of the block is undefined in the
source: here it reads nothing, or it writes somewhere else.

A `const byte*` with its size is a list. The memory that the caller still owns is not shared:
`setbuf` takes the bytes that are there at the time.
-/

namespace Stormancer.Streams

/-! ## Data -/

/-- The pointers of an area: `eback`, `gptr`, `egptr`, or `pbase`, `pptr`, `epptr`. -/
structure Area where
  first : Int
  next : Int
  last : Int
deriving DecidableEq

structure ByteStreamBuf where
  memory : Option (List UInt8)
  getArea : Area
  putArea : Area
  /-- The flags of `_mode`. -/
  read : Bool
  write : Bool
  dynamic : Bool
  allocated : Bool
  /-- The end of what was given to `setbuf` or written (for the statements only). -/
  written : Int
deriving DecidableEq

/-- `std::ios_base::seekdir`. -/
inductive SeekDir
  | beg
  | cur
  | end_
deriving DecidableEq

/-- The conversion of a `streamsize` to `int`. -/
def toInt (x : Int) : Int := x.bmod 0x100000000

namespace ByteStreamBuf

/-! ## Pointers -/

def setg (s : ByteStreamBuf) (first next last : Int) : ByteStreamBuf :=
  { s with getArea := ⟨first, next, last⟩ }

def setp (s : ByteStreamBuf) (first last : Int) : ByteStreamBuf :=
  { s with putArea := ⟨first, first, last⟩ }

def pbump (s : ByteStreamBuf) (count : Int) : ByteStreamBuf :=
  { s with putArea := { s.putArea with next := s.putArea.next + count } }

def setgIfValid (s : ByteStreamBuf) (first next last : Int) : Option ByteStreamBuf :=
  if first ≤ next ∧ next ≤ last then some (s.setg first next last) else none

def setpIfValid (s : ByteStreamBuf) (first next last : Int) : Option ByteStreamBuf :=
  if first ≤ next ∧ next ≤ last then some ((s.setp first last).pbump (toInt (next - first)))
  else none

/-- The pointers are not null. -/
def isAllocated (s : ByteStreamBuf) : Bool := s.memory.isSome

/-! ## Construction -/

def reset : ByteStreamBuf where
  memory := none
  getArea := ⟨0, 0, 0⟩
  putArea := ⟨0, 0, 0⟩
  read := false
  write := false
  dynamic := false
  allocated := false
  written := 0

/-- `init`. The block has the size that is left after the conversion to `unsigned int`. -/
def init (size : Int) : ByteStreamBuf :=
  if 0 < size then
    { memory := some (List.replicate (size % 0x100000000).toNat 0)
      getArea := ⟨0, 0, 0⟩
      putArea := ⟨0, 0, size⟩
      read := true
      write := true
      dynamic := true
      allocated := true
      written := 0 }
  else { reset with read := true, write := true, dynamic := true, allocated := true }

/-- `dynamic(bool)`. -/
def setDynamic (s : ByteStreamBuf) (dyn : Bool) : ByteStreamBuf := { s with dynamic := dyn }

/-- `setbuf`, after `tidy`. -/
def setbuf (data : List UInt8) : ByteStreamBuf :=
  { reset with
    memory := some data
    getArea := ⟨0, 0, data.length⟩
    putArea := ⟨0, 0, data.length⟩
    read := true
    write := true
    written := data.length }

/-- `bytestreambuf::bytestreambuf(dataPtr, dataSize, isDynamic)`. -/
def create (data : List UInt8) (isDynamic : Bool) : ByteStreamBuf :=
  (if data = [] then init 0 else setbuf data).setDynamic isDynamic

/-! ## Sizes -/

def size (s : ByteStreamBuf) : Int :=
  if s.write then s.getArea.last - s.getArea.first
  else if s.read then s.putArea.last - s.putArea.first
  else 0

def currentReadPosition (s : ByteStreamBuf) : Int :=
  if s.isAllocated then s.getArea.next - s.getArea.first else 0

def currentWritePosition (s : ByteStreamBuf) : Int :=
  if s.isAllocated then s.putArea.next - s.putArea.first else 0

def showmanyc (s : ByteStreamBuf) : Int :=
  if s.read then
    if s.getArea.next ≠ s.getArea.last then s.getArea.last - s.getArea.next
    else if s.write then 0
    else -1
  else -1

def inAvail (s : ByteStreamBuf) : Int :=
  if s.getArea.next < s.getArea.last then s.getArea.last - s.getArea.next else s.showmanyc

/-! ## Seeks -/

/-- The offset that `off` is added to. -/
def seekOrigin (a : Area) : SeekDir → Int
  | .beg => 0
  | .cur => a.next - a.first
  | .end_ => a.last - a.first

/-- The part of `seekoff` about the get area. -/
def seekGet (s : ByteStreamBuf) (off : Int) (way : SeekDir) : Option ByteStreamBuf :=
  let a := s.getArea
  let finaloff := seekOrigin a way + off
  if !s.isAllocated then none
  else if finaloff < 0 ∨ a.last - a.first < finaloff then none
  else s.setgIfValid a.first (a.first + finaloff) a.last

/-- The part of `seekoff` about the put area. -/
def seekPut (s : ByteStreamBuf) (off : Int) (way : SeekDir) : Option ByteStreamBuf :=
  let a := s.putArea
  let finaloff := seekOrigin a way + off
  if !s.isAllocated then none
  else if finaloff < 0 ∨ a.last - a.first < finaloff then none
  else s.setpIfValid a.first (a.first + finaloff) a.last

/-- `seekoff`. The result is the offset that `off` was added to. -/
def seekoff (s : ByteStreamBuf) (off : Int) (way : SeekDir) (inn out : Bool) :
    Int × ByteStreamBuf :=
  if inn && out && way = .cur then (-1, s)
  else
    match if s.read && inn then s.seekGet off way else some s with
    | none => (-1, s)
    | some s₁ =>
      match if s.write && out then s₁.seekPut off way else some s₁ with
      | none => (-1, s₁)
      | some s₂ =>
        (if s.write && out then seekOrigin s.putArea way
          else if s.read && inn then seekOrigin s.getArea way
          else 0, s₂)

/-- The part of `seekpos` about the get area. -/
def seekposGet (s : ByteStreamBuf) (pos : Int) : Option ByteStreamBuf :=
  if !s.isAllocated ∨ pos < 0 then none
  else s.setgIfValid s.getArea.first (s.getArea.first + pos) s.getArea.last

/-- The part of `seekpos` about the put area. -/
def seekposPut (s : ByteStreamBuf) (pos : Int) : Option ByteStreamBuf :=
  if !s.isAllocated ∨ pos < 0 then none
  else s.setpIfValid s.putArea.first (s.putArea.first + pos) s.putArea.last

def seekpos (s : ByteStreamBuf) (pos : Int) (inn out : Bool) : Int × ByteStreamBuf :=
  match if s.read && inn then s.seekposGet pos else some s with
  | none => (-1, s)
  | some s₁ =>
    match if s.write && out then s₁.seekposPut pos else some s₁ with
    | none => (-1, s₁)
    | some s₂ => (pos, s₂)

/-! ## Reads -/

/-- The byte at an offset. -/
def byteAt (s : ByteStreamBuf) (offset : Int) : Option UInt8 :=
  if offset < 0 then none else s.memory.bind fun m => m[offset.toNat]?

/-- `memcpy` from the block. -/
def copy (s : ByteStreamBuf) (offset size : Int) : List UInt8 :=
  ((s.memory.getD []).drop offset.toNat).take size.toNat

/-- `xsgetn`, with the bytes that it copies. -/
def xsgetn (s : ByteStreamBuf) (n : Int) : List UInt8 × ByteStreamBuf :=
  if s.read then
    let size := min s.showmanyc n
    (s.copy s.getArea.next size,
      s.setg s.getArea.first (s.getArea.next + size) s.getArea.last)
  else ([], s)

def underflow (s : ByteStreamBuf) : Option UInt8 :=
  if s.read && s.getArea.next ≠ s.getArea.last then s.byteAt s.getArea.next else none

def uflow (s : ByteStreamBuf) : Option UInt8 × ByteStreamBuf :=
  if s.read && s.getArea.next ≠ s.getArea.last then
    (s.byteAt s.getArea.next, s.setg s.getArea.first (s.getArea.next + 1) s.getArea.last)
  else (none, s)

def sgetc (s : ByteStreamBuf) : Option UInt8 :=
  if s.getArea.next < s.getArea.last then s.byteAt s.getArea.next else s.underflow

def sbumpc (s : ByteStreamBuf) : Option UInt8 × ByteStreamBuf :=
  if s.getArea.next < s.getArea.last then
    (s.byteAt s.getArea.next, s.setg s.getArea.first (s.getArea.next + 1) s.getArea.last)
  else s.uflow

/-! ## Putbacks -/

/-- The byte at the offset becomes `c`. -/
def setByte (s : ByteStreamBuf) (offset : Int) (c : UInt8) : ByteStreamBuf :=
  { s with memory := s.memory.map fun m => m.set offset.toNat c }

/-- `pbackfail`; `none` stands for `eof`, as an argument and as the result. -/
def pbackfail (s : ByteStreamBuf) (c : Option UInt8) : Option UInt8 × ByteStreamBuf :=
  let c := c.getD 0xff
  if s.read && s.getArea.first < s.getArea.next then
    let next := s.getArea.next - 1
    if s.write then (some c, (s.setByte next c).setg s.getArea.first next s.getArea.last)
    else if s.byteAt next ≠ some c then (none, s)
    else (some c, s.setg s.getArea.first next s.getArea.last)
  else (none, s)

def sungetc (s : ByteStreamBuf) : Option UInt8 × ByteStreamBuf :=
  let next := s.getArea.next - 1
  if s.getArea.first < s.getArea.next then
    (s.byteAt next, s.setg s.getArea.first next s.getArea.last)
  else s.pbackfail none

def sputbackc (s : ByteStreamBuf) (c : UInt8) : Option UInt8 × ByteStreamBuf :=
  let next := s.getArea.next - 1
  if s.getArea.first < s.getArea.next && s.byteAt next = some c then
    (some c, s.setg s.getArea.first next s.getArea.last)
  else s.pbackfail (some c)

/-! ## Writes -/

def updateReadAfterWrite (s : ByteStreamBuf) : ByteStreamBuf :=
  if s.write && s.read then s.setg s.getArea.first s.getArea.next s.putArea.next else s

/-- The loop of `grow`, with the number of rounds that are left. -/
def doubleSize (minSize : Int) : Nat → Int → Int
  | 0, newSize => newSize
  | n + 1, newSize =>
    if newSize < minSize then doubleSize minSize n (newSize * 2) else newSize

/-- The size of the block that `grow` makes. -/
def grownSize (oldSize minSize : Int) : Int :=
  doubleSize minSize minSize.toNat (if 0 < oldSize then oldSize else 32)

def grow (s : ByteStreamBuf) (minSize : Int) : ByteStreamBuf :=
  if 0 < minSize ∧ s.dynamic then
    let oldSize := if s.isAllocated then s.putArea.last - s.putArea.first else 0
    let old := s.memory.getD []
    let s' : ByteStreamBuf := { init (grownSize oldSize minSize) with
      read := s.read
      write := s.write
      dynamic := s.dynamic
      allocated := s.allocated
      written := s.written }
    if 0 < oldSize then
      let moved : ByteStreamBuf :=
        { s' with memory := s'.memory.map (Bytes.overwrite · 0 (old.take oldSize.toNat)) }
      let offset := s.putArea.next - s.putArea.first
      ((moved.setp s'.putArea.first s'.putArea.last).pbump (toInt offset)).setg s'.putArea.first
        (s'.putArea.first + (s.getArea.next - s.getArea.first)) s'.putArea.last
    else s'
  else s

/-- The number of bytes that fit into the put area. -/
def room (s : ByteStreamBuf) : Int :=
  if s.isAllocated then s.putArea.last - s.putArea.next else 0

/-- The bytes are copied to the put position. -/
def store (s : ByteStreamBuf) (data : List UInt8) : ByteStreamBuf :=
  let first := s.putArea.first
  let next := s.putArea.next + data.length
  let s := { s with
    memory := s.memory.map (Bytes.overwrite · s.putArea.next.toNat data)
    written := max s.written next }
  ((s.setp first s.putArea.last).pbump (toInt (next - first))).updateReadAfterWrite

/-- The buffer once `xsputn` has reserved what it needs. -/
def reserve (s : ByteStreamBuf) (n : Int) : ByteStreamBuf :=
  if s.room < n ∧ s.dynamic then s.grow (n + (s.putArea.next - s.putArea.first)) else s

/-- `xsputn`, with the number of bytes that it writes. -/
def xsputn (s : ByteStreamBuf) (data : List UInt8) : Int × ByteStreamBuf :=
  if data ≠ [] ∧ s.write then
    let s := s.reserve data.length
    let sz := min s.room data.length
    if 0 < sz then (sz, s.store (data.take sz.toNat)) else (0, s)
  else (0, s)

/-- `overflow`. The result is always `eof`. -/
def overflow (s : ByteStreamBuf) (c : UInt8) : ByteStreamBuf :=
  if s.write then
    let s :=
      if s.isAllocated && s.putArea.next ≠ s.putArea.last then s.setByte s.putArea.next c else s
    s.updateReadAfterWrite
  else s

/-- `sputc`, with whether it succeeded. -/
def sputc (s : ByteStreamBuf) (c : UInt8) : Bool × ByteStreamBuf :=
  if s.putArea.next < s.putArea.last then
    (true, { (s.setByte s.putArea.next c).pbump 1 with
      written := max s.written (s.putArea.next + 1) })
  else (false, s.overflow c)

/-- The bytes are written with `sputc`, until one fails. -/
def sputcs (s : ByteStreamBuf) : List UInt8 → Bool × ByteStreamBuf
  | [] => (true, s)
  | c :: rest =>
    match s.sputc c with
    | (true, s) => s.sputcs rest
    | (false, s) => (false, s)

/-! ## Steps -/

inductive Action
  | sgetn (n : Int)
  | sgetc
  | sbumpc
  | sputn (data : List UInt8)
  | sputc (c : UInt8)
  | seekoff (off : Int) (way : SeekDir) (inn out : Bool)
  | seekpos (pos : Int) (inn out : Bool)
  | sputbackc (c : UInt8)
  | sungetc
  | dynamic (dyn : Bool)
  | setbuf (data : List UInt8)
deriving DecidableEq

def step (s : ByteStreamBuf) : Action → Option ByteStreamBuf
  | .sgetn n => some (s.xsgetn n).2
  | .sgetc => some s
  | .sbumpc => some s.sbumpc.2
  | .sputn data => some (s.xsputn data).2
  | .sputc c => some (s.sputc c).2
  | .seekoff off way inn out => some (s.seekoff off way inn out).2
  | .seekpos pos inn out => some (s.seekpos pos inn out).2
  | .sputbackc c => some (s.sputbackc c).2
  | .sungetc => some s.sungetc.2
  | .dynamic dyn => some (s.setDynamic dyn)
  | .setbuf data => some (ByteStreamBuf.setbuf data)

end ByteStreamBuf
end Stormancer.Streams
