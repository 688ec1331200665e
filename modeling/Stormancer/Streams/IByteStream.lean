import Stormancer.Packets.Dispatcher
import Stormancer.Streams.OByteStream
import Stormancer.Streams.Seeks

/-!
# `ibytestream`

The stream that is read from: `std::basic_istream<byte>` over a `bytestreambuf`. A value is read
into the memory of a variable, so that a read that finds too few bytes replaces only the first
ones.

Results:
1. `view_ofBytes`, `view_readByte`, `view_deserialize`, `view_setBuffer`: on ordered buffers, the
   streams of packets are these streams.
2. `readFixed_of_unread`, `readVector_of_unread`: what is read of the bytes of values.
3. `fields_roundTrip_iff`: what was written is read back exactly when the position after it is an
   `int` and an empty vector is read into an empty one.
4. `seekg_eq`, `tellg_eq`: a stream over bytes moves to each position in them, and an empty stream
   to none.
-/

namespace Stormancer.Streams

structure IByteStream where
  buffer : ByteStreamBuf
  /-- `good()`. -/
  good : Bool

namespace IByteStream

/-! ## The stream -/

/-- `ibytestream::ibytestream(byte* data, std::streamsize dataSize)`. -/
def ofBytes (data : List UInt8) : IByteStream := ⟨ByteStreamBuf.create data false, true⟩

/-- `ibytestream::read`: `std::basic_istream<byte>::read`, with the bytes that it copies. -/
def read (s : IByteStream) (n : Int) : List UInt8 × IByteStream :=
  if s.good then
    ((s.buffer.xsgetn n).1,
      { buffer := (s.buffer.xsgetn n).2, good := ((s.buffer.xsgetn n).1.length : Int) = n })
  else ([], s)

/-- `deserialize`, with the value that the variable has after it. -/
def deserialize (order : Bytes.Order) (s : IByteStream) (value : Fixed) : Fixed × IByteStream :=
  if s.good then
    let r := s.read value.type.size
    (Fixed.ofMemory order value.type (Bytes.overwrite (value.memory order) 0 r.1), r.2)
  else (value, s)

/-- `ibytestream::operator>>(std::vector<byte>&)`, with the bytes of the vector after it. -/
def readVector (s : IByteStream) (bytes : List UInt8) : List UInt8 × IByteStream :=
  let sz := s.buffer.inAvail
  if 0 < sz then
    let resized := bytes.take sz.toNat ++ List.replicate (sz.toNat - bytes.length) 0
    let r := s.read sz
    (Bytes.overwrite resized 0 r.1, r.2)
  else (bytes, s)

/-- The variables are read in order. -/
def readFixed (order : Bytes.Order) (s : IByteStream) : List Fixed → List Fixed × IByteStream
  | [] => ([], s)
  | value :: rest =>
    let r := s.deserialize order value
    let rs := r.2.readFixed order rest
    (r.1 :: rs.1, rs.2)

/-- `ibytestream::currentPosition`. -/
def currentPosition (s : IByteStream) : Int := s.buffer.currentReadPosition

/-- The bytes from the read position to the end. -/
def unread (s : IByteStream) : List UInt8 :=
  s.buffer.content.drop s.buffer.getArea.next.toNat

/-! ## The round trip -/

/-- The values are written with their operators, and then the vector. -/
def fields (values : List Fixed) (vector : List UInt8) : List OByteStream.Write :=
  values.map (fun v => .value (.fixed v)) ++ [.vector vector]

/-- The stream, once what was written is read into the variables and the vector: all values are
back, the stream is good after the last of them, and all bytes that were written are consumed. -/
structure ReadsBack (m : Machine) (values : List Fixed) (vector : List UInt8)
    (s : IByteStream) (targets : List Fixed) (target : List UInt8) : Prop where
  values_eq : (s.readFixed m.order targets).1 = values
  good : (s.readFixed m.order targets).2.good = true
  vector_eq : ((s.readFixed m.order targets).2.readVector target).1 = vector
  consumed : ((s.readFixed m.order targets).2.readVector target).2.currentPosition =
    (OByteStream.written m (fields values vector)).length
  unread : ((s.readFixed m.order targets).2.readVector target).2.unread = []

/-- Whatever the variables hold, the bytes that are written are read back. -/
def RoundTrips (m : Machine) (values : List Fixed) (vector target : List UInt8) : Prop :=
  ∃ bytes, (OByteStream.create.run m (fields values vector)).bytes = some bytes ∧
    ∀ targets : List Fixed, targets.map Fixed.type = values.map Fixed.type →
      ReadsBack m values vector (ofBytes bytes) targets target

namespace IByteStreamLemmas

open ByteStreamBuf ByteStreamBuf.PointersLemmas OByteStream OByteStream.OByteStreamLemmas

variable {m : Machine} {s : IByteStream}

/-! ### Reads -/

/-- What a read leaves: the buffer in order, with the same end. -/
structure Reading (s s' : IByteStream) : Prop where
  inv : s'.buffer.Inv
  last : s'.buffer.getArea.last = s.buffer.getArea.last

theorem Reading.refl (hi : s.buffer.Inv) : Reading s s := ⟨hi, rfl⟩

theorem Reading.trans {s₁ s₂ s₃ : IByteStream} (h : Reading s₁ s₂) (h' : Reading s₂ s₃) :
    Reading s₁ s₃ :=
  ⟨h'.inv, h'.last.trans h.last⟩

theorem length_unread (hi : s.buffer.Inv) :
    (s.unread.length : Int) = s.buffer.getArea.last - s.buffer.getArea.next := by
  have hnonneg := hi.next_nonneg
  have hle := hi.next_le
  have hlast := hi.put.getLast_le
  have hlength := hi.put.length
  unfold unread content
  rw [List.length_drop, List.length_take]
  omega

theorem currentPosition_eq (hi : s.buffer.Inv) : s.currentPosition = s.buffer.getArea.next := by
  have hnonneg := hi.next_nonneg
  have hle := hi.next_le
  have hlast := hi.put.getLast_le
  have hlength := hi.put.length
  unfold currentPosition currentReadPosition isAllocated
  rw [hi.put.getFirst]
  cases hm : s.buffer.memory with
  | none =>
    simp only [hm, Option.getD_none, List.length_nil] at hlength
    simp only [Option.isSome_none, Bool.false_eq_true, if_false]
    omega
  | some memory => simp

/-- A read takes as many of the unread bytes as it can. -/
theorem read_spec (hi : s.buffer.Inv) (hgood : s.good = true) (n : Nat) :
    Reading s (s.read n).2 ∧ (s.read n).1 = s.unread.take n ∧
      (s.read n).2.unread = s.unread.drop n ∧
      (s.read n).2.good = decide (n ≤ s.unread.length) := by
  have hbytes := (readsContent_of_inv hi).sgetn n (Int.natCast_nonneg n)
  have hmoves := xsgetn_moves s.buffer n
  have hlength := length_unread hi
  have hnonneg := hi.next_nonneg
  have hmany := showmanyc_eq hi
  have hnext : (s.buffer.xsgetn n).2 = { s.buffer with getArea :=
      ⟨s.buffer.getArea.first, s.buffer.getArea.next + min s.buffer.showmanyc n,
        s.buffer.getArea.last⟩ } := by
    unfold xsgetn
    rw [if_pos hi.put.read]
    rfl
  unfold read
  rw [if_pos hgood]
  refine ⟨⟨inv_of_movesRead hi (Int.natCast_nonneg n) hmoves, by rw [hnext]⟩, hbytes, ?_, ?_⟩
  · unfold unread content
    rw [hnext]
    dsimp only
    rw [List.drop_drop]
    by_cases hle : n ≤ s.unread.length
    · congr 1
      omega
    · rw [List.drop_eq_nil_of_le, List.drop_eq_nil_of_le]
      · rw [List.length_take]
        omega
      · rw [List.length_take]
        omega
  · dsimp only
    rw [hbytes]
    change decide ((((s.unread.take (n : Int).toNat).length : Nat) : Int) = n) = _
    rw [Int.toNat_natCast, List.length_take]
    congr 1
    rw [eq_iff_iff]
    omega

theorem reading_read (hi : s.buffer.Inv) (n : Nat) : Reading s (s.read n).2 := by
  cases hgood : s.good with
  | true => exact (read_spec hi hgood n).1
  | false =>
    unfold read
    rw [hgood]
    exact Reading.refl hi

theorem reading_deserialize (order : Bytes.Order) (hi : s.buffer.Inv) (value : Fixed) :
    Reading s (s.deserialize order value).2 := by
  unfold deserialize
  split
  · exact reading_read hi value.type.size
  · exact Reading.refl hi

theorem reading_readFixed (order : Bytes.Order) (hi : s.buffer.Inv) (targets : List Fixed) :
    Reading s (s.readFixed order targets).2 := by
  induction targets generalizing s with
  | nil => exact Reading.refl hi
  | cons value rest ih =>
    have hfirst := reading_deserialize order hi value
    exact hfirst.trans (ih hfirst.inv)

theorem inAvail_eq (hi : s.buffer.Inv) : s.buffer.inAvail = s.unread.length := by
  have hmany := showmanyc_eq hi
  have hle := hi.next_le
  rw [length_unread hi]
  unfold inAvail
  split
  · rfl
  · exact hmany

theorem reading_readVector (hi : s.buffer.Inv) (target : List UInt8) :
    Reading s (s.readVector target).2 := by
  unfold readVector
  rw [inAvail_eq hi]
  dsimp only
  split
  · exact reading_read hi s.unread.length
  · exact Reading.refl hi

/-! ### Values -/

/-- A value is read from its memory into a variable of its type. -/
theorem deserialize_of_unread {order : Bytes.Order} (hi : s.buffer.Inv) (hgood : s.good = true)
    {value v : Fixed} (htype : value.type = v.type) {rest : List UInt8}
    (hunread : s.unread = v.memory order ++ rest) :
    (s.deserialize order value).1 = v ∧ (s.deserialize order value).2.good = true ∧
      (s.deserialize order value).2.unread = rest := by
  obtain ⟨-, hbytes, hrest, hstill⟩ := read_spec hi hgood value.type.size
  have hsize : value.type.size = (v.memory order).length := by
    rw [htype, Fixed.length_memory]
  rw [hunread, hsize, List.take_left] at hbytes
  rw [hunread, hsize, List.drop_left] at hrest
  unfold deserialize
  rw [if_pos hgood]
  dsimp only
  rw [hsize] at hstill ⊢
  refine ⟨?_, ?_, hrest⟩
  · rw [hbytes, Fixed.overwrite_memory htype, htype, Fixed.ofMemory_memory]
  · rw [hstill, hunread, List.length_append]
    exact decide_eq_true (Nat.le_add_right _ _)

theorem readFixed_of_unread {order : Bytes.Order} (hi : s.buffer.Inv) (hgood : s.good = true)
    {targets values : List Fixed} (htypes : targets.map Fixed.type = values.map Fixed.type)
    {rest : List UInt8} (hunread : s.unread = values.flatMap (Fixed.memory order) ++ rest) :
    (s.readFixed order targets).1 = values ∧ (s.readFixed order targets).2.good = true ∧
      (s.readFixed order targets).2.unread = rest := by
  induction values generalizing s targets with
  | nil =>
    rw [List.map_nil, List.map_eq_nil_iff] at htypes
    subst htypes
    exact ⟨rfl, hgood, hunread⟩
  | cons v values ih =>
    cases targets with
    | nil => cases htypes
    | cons value targets =>
      rw [List.map_cons, List.map_cons, List.cons.injEq] at htypes
      rw [List.flatMap_cons, List.append_assoc] at hunread
      obtain ⟨hvalue, hstill, hafter⟩ := deserialize_of_unread hi hgood htypes.1 hunread
      have hi' := (reading_deserialize order hi value).inv
      obtain ⟨hvalues, hlast, hrest⟩ := ih hi' hstill htypes.2 hafter
      unfold readFixed
      dsimp only
      rw [hvalue, hvalues]
      exact ⟨rfl, hlast, hrest⟩

/-- What is left is read into the vector, unless it is nothing. -/
theorem readVector_of_unread (hi : s.buffer.Inv) (hgood : s.good = true) (target : List UInt8) :
    (s.readVector target).1 = (if s.unread = [] then target else s.unread) ∧
      (s.readVector target).2.unread = [] := by
  unfold readVector
  rw [inAvail_eq hi]
  dsimp only
  by_cases hnil : s.unread = []
  · rw [if_pos hnil, hnil]
    exact ⟨rfl, hnil⟩
  · have hpos : 0 < s.unread.length := List.length_pos_of_ne_nil hnil
    obtain ⟨-, hbytes, hrest, -⟩ := read_spec hi hgood s.unread.length
    rw [if_neg hnil, if_pos (by omega)]
    refine ⟨?_, ?_⟩
    · rw [hbytes, List.take_length, Bytes.overwrite_whole]
      rw [List.length_append, List.length_take, List.length_replicate, Int.toNat_natCast]
      omega
    · rw [hrest, List.drop_length]

/-! ### The round trip -/

theorem written_fields (m : Machine) (values : List Fixed) (vector : List UInt8) :
    OByteStream.written m (fields values vector) =
      values.flatMap (Fixed.memory m.order) ++ vector := by
  unfold OByteStream.written fields
  rw [List.flatMap_append, List.flatMap_map, List.flatMap_singleton]
  rfl

theorem content_create (data : List UInt8) (isDynamic : Bool) :
    (ByteStreamBuf.create data isDynamic).content = data := by
  unfold ByteStreamBuf.create
  split
  · next hnil =>
    subst hnil
    rfl
  · exact List.take_of_length_le (by simp [ByteStreamBuf.setDynamic, ByteStreamBuf.setbuf])

theorem unread_ofBytes (data : List UInt8) : (ofBytes data).unread = data := by
  have hnext : (ByteStreamBuf.create data false).getArea.next = 0 := by
    unfold ByteStreamBuf.create
    split <;> rfl
  unfold unread ofBytes
  rw [content_create, hnext]
  rfl

theorem last_ofBytes (data : List UInt8) : (ofBytes data).buffer.getArea.last = data.length := by
  unfold ofBytes ByteStreamBuf.create
  split
  · next hnil =>
    subst hnil
    rfl
  · rfl

/-- What is read of the bytes that were written. -/
theorem reads_written (m : Machine) {values : List Fixed} (vector : List UInt8)
    {targets : List Fixed} (htypes : targets.map Fixed.type = values.map Fixed.type)
    (target : List UInt8) :
    let s := ofBytes (OByteStream.written m (fields values vector))
    (s.readFixed m.order targets).1 = values ∧ (s.readFixed m.order targets).2.good = true ∧
      ((s.readFixed m.order targets).2.readVector target).1 =
        (if vector = [] then target else vector) ∧
      ((s.readFixed m.order targets).2.readVector target).2.unread = [] := by
  intro s
  have hi : s.buffer.Inv := inv_create _ false
  have hunread : s.unread = values.flatMap (Fixed.memory m.order) ++ vector := by
    rw [unread_ofBytes, written_fields]
  obtain ⟨hvalues, hgood, hrest⟩ := readFixed_of_unread hi rfl htypes hunread
  have hread := (reading_readFixed m.order hi targets).inv
  obtain ⟨hvector, hnone⟩ := readVector_of_unread hread hgood target
  rw [hrest] at hvector
  exact ⟨hvalues, hgood, hvector, hnone⟩

/-- The read position at the end is inside of the data. -/
theorem position_le (order : Bytes.Order) (data : List UInt8) (targets : List Fixed)
    (target : List UInt8) :
    (((ofBytes data).readFixed order targets).2.readVector target).2.currentPosition +
      (((ofBytes data).readFixed order targets).2.readVector target).2.unread.length =
        data.length := by
  have hi : (ofBytes data).buffer.Inv := inv_create _ false
  have hfields := reading_readFixed order hi targets
  have hvector := reading_readVector hfields.inv target
  have hlast := (hfields.trans hvector).last
  rw [last_ofBytes] at hlast
  rw [currentPosition_eq hvector.inv, length_unread hvector.inv, hlast]
  omega

theorem roundTrips_of_small {values : List Fixed} {vector target : List UInt8}
    (hsmall : (OByteStream.written m (fields values vector)).length < 0x80000000)
    (htarget : vector ≠ [] ∨ target = []) : RoundTrips m values vector target := by
  refine ⟨_, bytes_of_holds (run_create_holds hsmall), fun targets htypes => ?_⟩
  obtain ⟨hvalues, hgood, hvector, hnone⟩ := reads_written m vector htypes target
  have hposition := position_le m.order (written m (fields values vector)) targets target
  rw [hnone, List.length_nil, Nat.cast_zero, add_zero] at hposition
  refine ⟨hvalues, hgood, ?_, hposition, hnone⟩
  rw [hvector]
  split
  · next hnil =>
    rcases htarget with hne | htarget
    · exact absurd hnil hne
    · rw [hnil, htarget]
  · rfl

theorem small_of_roundTrips {values : List Fixed} {vector target : List UInt8}
    (h : RoundTrips m values vector target) :
    (OByteStream.written m (fields values vector)).length < 0x80000000 := by
  obtain ⟨bytes, hbytes, hreads⟩ := h
  have hlt := length_bytes_lt hbytes
  have hconsumed := (hreads values rfl).consumed
  have hposition := position_le m.order bytes values target
  omega

theorem target_of_roundTrips {values : List Fixed} {vector target : List UInt8}
    (h : RoundTrips m values vector target) : vector ≠ [] ∨ target = [] := by
  have hsmall := small_of_roundTrips h
  obtain ⟨bytes, hbytes, hreads⟩ := h
  rw [bytes_of_holds (run_create_holds hsmall)] at hbytes
  cases hbytes
  have htypes : values.map Fixed.type = values.map Fixed.type := rfl
  obtain ⟨-, -, hvector, -⟩ := reads_written m vector htypes target
  rw [(hreads values rfl).vector_eq] at hvector
  by_cases hnil : vector = []
  · rw [if_pos hnil] at hvector
    exact .inr (hvector.symm.trans hnil)
  · exact .inl hnil

end IByteStreamLemmas

open IByteStreamLemmas

/-- The values and the vector are read back exactly when the bytes that are written are fewer than
`2 ^ 31`, and an empty vector is read into an empty one. -/
theorem fields_roundTrip_iff (m : Machine) (values : List Fixed) (vector target : List UInt8) :
    RoundTrips m values vector target ↔
      (OByteStream.written m (fields values vector)).length < 0x80000000 ∧
        (vector ≠ [] ∨ target = []) :=
  ⟨fun h => ⟨small_of_roundTrips h, target_of_roundTrips h⟩, fun h => roundTrips_of_small h.1 h.2⟩

/-- An empty vector leaves the bytes of the vector that it is read into, and of a vector of
`2 ^ 31` bytes nothing is read. -/
theorem not_roundTrips_empty_or_large :
    ¬ RoundTrips ⟨.little, 8⟩ [.uint8 1] [] [7] ∧
      ¬ RoundTrips ⟨.little, 8⟩ [] (List.replicate 0x80000000 0) [] := by
  refine ⟨fun h => ?_, fun h => ?_⟩
  · rcases target_of_roundTrips h with hne | htarget
    · exact hne rfl
    · cases htarget
  · have hsmall := small_of_roundTrips h
    rw [written_fields, List.flatMap_nil, List.nil_append, List.length_replicate] at hsmall
    exact absurd hsmall (by decide)

/-! ## The streams of packets -/

/-- The stream as a packet has it: the bytes before and after the read position. -/
def view (s : IByteStream) : Packets.IByteStream :=
  ⟨s.buffer.content.take s.buffer.getArea.next.toNat, s.unread, s.good⟩

theorem view_ofBytes (data : List UInt8) :
    (ofBytes data).view = Packets.IByteStream.ofBytes data := by
  have hnext : (ofBytes data).buffer.getArea.next = 0 := by
    unfold ofBytes ByteStreamBuf.create
    dsimp only
    split <;> rfl
  unfold view Packets.IByteStream.ofBytes
  rw [unread_ofBytes, hnext]
  rfl

/-- `rdbuf()->pubsetbuf(data, size)`. -/
def setBuffer (s : IByteStream) (data : List UInt8) : IByteStream :=
  { s with buffer := ByteStreamBuf.setbuf data }

theorem view_setBuffer (s : IByteStream) (data : List UInt8) :
    (s.setBuffer data).view = s.view.setBuffer data := by
  have hcontent : (ByteStreamBuf.setbuf data).content = data :=
    List.take_of_length_le (by simp [ByteStreamBuf.setbuf])
  unfold view setBuffer Packets.IByteStream.setBuffer unread
  dsimp only
  rw [hcontent]
  rfl

theorem content_read (s : IByteStream) (n : Int) :
    (s.read n).2.buffer.content = s.buffer.content := by
  unfold read ByteStreamBuf.xsgetn
  split
  · dsimp only
    split <;> rfl
  · rfl

/-- The bytes that a read takes are those that the stream has consumed more. -/
theorem view_read {s : IByteStream} (hi : s.buffer.Inv) (hgood : s.good = true) (n : Nat) :
    (s.read n).2.view = ⟨s.view.consumed ++ s.unread.take n, s.unread.drop n,
      decide (n ≤ s.unread.length)⟩ := by
  have hsplit : ∀ t : IByteStream, t.view.consumed ++ t.unread = t.buffer.content := fun t =>
    List.take_append_drop ..
  obtain ⟨-, -, hrest, hstill⟩ := read_spec hi hgood n
  have hafter := hsplit (s.read n).2
  rw [content_read, ← hsplit s, hrest] at hafter
  nth_rewrite 2 [← List.take_append_drop n s.unread] at hafter
  rw [← List.append_assoc] at hafter
  have hconsumed := List.append_cancel_right hafter
  rw [← hconsumed, ← hrest, ← hstill]
  rfl

/-- A byte is read as the stream of a packet reads it. -/
theorem view_readByte {s : IByteStream} (hi : s.buffer.Inv) (order : Bytes.Order) (v : UInt8) :
    (s.deserialize order (.uint8 v)).1 = .uint8 (s.view.readByte v).1 ∧
      (s.deserialize order (.uint8 v)).2.view = (s.view.readByte v).2 := by
  unfold deserialize Packets.IByteStream.readByte
  cases hgood : s.good with
  | false =>
    have hview : s.view.good = false := hgood
    rw [if_neg Bool.false_ne_true, if_neg (ne_true_of_eq_false hview)]
    exact ⟨rfl, rfl⟩
  | true =>
    obtain ⟨-, hbytes, -, -⟩ := read_spec hi hgood 1
    have hview := view_read hi hgood 1
    have hrest : s.view.unread = s.unread := rfl
    rw [if_pos rfl, if_pos (show s.view.good = true from hgood), hrest]
    dsimp only [Fixed.type, FixedType.size]
    rw [hbytes, hview]
    cases s.unread with
    | nil =>
      rw [List.take_nil, Bytes.overwrite_nil, List.append_nil]
      exact ⟨Fixed.ofMemory_memory order (.uint8 v), rfl⟩
    | cons b rest =>
      have hmemory : Bytes.overwrite ((Fixed.uint8 v).memory order) 0 [b] =
          (Fixed.uint8 b).memory order := by
        rw [Fixed.memory_uint8, Fixed.memory_uint8]
        rfl
      refine ⟨?_, ?_⟩
      · rw [List.take_succ_cons, List.take_zero, hmemory]
        exact Fixed.ofMemory_memory order (.uint8 b)
      · rw [show s.view.good = true from hgood, decide_eq_true (by simp)]
        rfl

end IByteStream
end Stormancer.Streams

/-! ### Values in packets -/

namespace Stormancer.Packets.IByteStream

open Streams (Fixed)

/-- `stream >> value`, with the value that the variable has after it. -/
def deserialize (order : Bytes.Order) (s : IByteStream) (value : Fixed) : Fixed × IByteStream :=
  if s.good then
    let bytes := s.unread.take value.type.size
    (Fixed.ofMemory order value.type (Bytes.overwrite (value.memory order) 0 bytes),
      ⟨s.consumed ++ bytes, s.unread.drop value.type.size,
        decide (value.type.size ≤ s.unread.length)⟩)
  else (value, s)

/-- A value is read from its memory into a variable of its type. -/
theorem deserialize_of_unread {order : Bytes.Order} {s : IByteStream} (hgood : s.good = true)
    {value v : Fixed} (htype : value.type = v.type) {rest : List UInt8}
    (hunread : s.unread = v.memory order ++ rest) :
    s.deserialize order value = (v, ⟨s.consumed ++ v.memory order, rest, true⟩) := by
  have hsize : value.type.size = (v.memory order).length := by
    rw [htype, Fixed.length_memory]
  have hwhole : Bytes.overwrite (value.memory order) 0 (v.memory order) = v.memory order :=
    Fixed.overwrite_memory htype
  have hread : Fixed.ofMemory order value.type (v.memory order) = v := by
    rw [htype, Fixed.ofMemory_memory]
  unfold deserialize
  rw [if_pos hgood, hunread, hsize]
  dsimp only
  rw [List.take_left, List.drop_left, hwhole, hread, decide_eq_true (by simp)]

/-- `stream >> value` for a `uint16`. -/
def readUInt16 (order : Bytes.Order) (s : IByteStream) (value : UInt16) : UInt16 × IByteStream :=
  match s.deserialize order (.uint16 value) with
  | (.uint16 v, s) => (v, s)
  | (_, s) => (value, s)

theorem readUInt16_of_unread {order : Bytes.Order} {s : IByteStream} (hgood : s.good = true)
    {v : UInt16} {rest : List UInt8} (hunread : s.unread = (Fixed.uint16 v).memory order ++ rest)
    (value : UInt16) :
    s.readUInt16 order value = (v, ⟨s.consumed ++ (Fixed.uint16 v).memory order, rest, true⟩) := by
  have htype : (Fixed.uint16 value).type = (Fixed.uint16 v).type := rfl
  have hread := deserialize_of_unread hgood htype hunread
  unfold readUInt16
  rw [hread]

end Stormancer.Packets.IByteStream

namespace Stormancer.Streams.IByteStream

open IByteStreamLemmas

/-- A value is read as the stream of a packet reads it. -/
theorem view_deserialize {s : IByteStream} (hi : s.buffer.Inv) (order : Bytes.Order)
    (value : Fixed) :
    (s.deserialize order value).1 = (s.view.deserialize order value).1 ∧
      (s.deserialize order value).2.view = (s.view.deserialize order value).2 := by
  unfold deserialize Packets.IByteStream.deserialize
  cases hgood : s.good with
  | false =>
    have hview : s.view.good = false := hgood
    rw [if_neg Bool.false_ne_true, if_neg (ne_true_of_eq_false hview)]
    exact ⟨rfl, rfl⟩
  | true =>
    obtain ⟨-, hbytes, -, -⟩ := read_spec hi hgood value.type.size
    rw [if_pos rfl, if_pos (show s.view.good = true from hgood)]
    dsimp only
    rw [hbytes, view_read hi hgood value.type.size]
    exact ⟨rfl, rfl⟩

end Stormancer.Streams.IByteStream

/-! ## Positions -/

namespace Stormancer.Streams.IByteStream

open ByteStreamBuf

/-- `ibytestream::availableSize`. -/
def availableSize (s : IByteStream) : Int := s.buffer.inAvail

/-- `ibytestream::bytes`. -/
def bytes (s : IByteStream) : List UInt8 :=
  if s.good then s.buffer.copy s.buffer.getArea.first s.buffer.size else []

/-- `std::basic_istream<byte>::seekg(off, way)`. -/
def seekg (s : IByteStream) (off : Int) (way : SeekDir) : IByteStream :=
  if s.good then
    let r := s.buffer.seekoff off way true false
    { buffer := r.2, good := r.1 ≠ -1 }
  else s

/-- `std::basic_istream<byte>::seekg(pos)`. -/
def seekgPos (s : IByteStream) (pos : Int) : IByteStream :=
  if s.good then
    let r := s.buffer.seekpos pos true false
    { buffer := r.2, good := r.1 ≠ -1 }
  else s

/-- `std::basic_istream<byte>::tellg`. -/
def tellg (s : IByteStream) : Int × IByteStream :=
  if s.good then
    let r := s.buffer.seekoff 0 .cur true false
    (r.1, { s with buffer := r.2 })
  else (-1, s)

/-- What is done with a stream that is read from. -/
inductive Access
  | read (n : Nat)
  | value (order : Bytes.Order) (value : Fixed)
  | vector (bytes : List UInt8)
  | seekg (off : Int) (way : SeekDir)
  | seekgPos (pos : Int)

def access (s : IByteStream) : Access → IByteStream
  | .read n => (s.read n).2
  | .value order value => (s.deserialize order value).2
  | .vector bytes => (s.readVector bytes).2
  | .seekg off way => s.seekg off way
  | .seekgPos pos => s.seekgPos pos

/-- The stream is over the data, at some position in it. -/
structure Over (s : IByteStream) (data : List UInt8) : Prop where
  inv : s.buffer.Inv
  memory : s.buffer.memory = if data = [] then none else some data
  last : s.buffer.getArea.last = data.length

namespace Over

variable {s : IByteStream} {data : List UInt8}

theorem content (h : s.Over data) : s.buffer.content = data := by
  unfold ByteStreamBuf.content
  rw [h.memory, h.last]
  by_cases hnil : data = [] <;> simp [hnil]

theorem unread (h : s.Over data) :
    s.unread = data.drop s.buffer.getArea.next.toNat := by
  unfold IByteStream.unread
  rw [h.content]

theorem allocated (h : s.Over data) : s.buffer.isAllocated = true ↔ data ≠ [] := by
  unfold isAllocated
  rw [h.memory]
  by_cases hnil : data = [] <;> simp [hnil]

end Over

namespace PositionsLemmas

open ByteStreamBuf.SeeksLemmas IByteStreamLemmas

variable {s : IByteStream} {data : List UInt8}

/-- The read position is moved. -/
def moveTo (s : IByteStream) (x : Int) : IByteStream := { s with buffer := moveGet s.buffer x }

/-! ### The data of a stream -/

theorem over_ofBytes (data : List UInt8) : (ofBytes data).Over data where
  inv := PointersLemmas.inv_create data false
  memory := by
    unfold ofBytes ByteStreamBuf.create
    by_cases hnil : data = [] <;> simp [hnil, setDynamic, setbuf, init, reset]
  last := last_ofBytes data

theorem memory_read (s : IByteStream) (n : Int) :
    (s.read n).2.buffer.memory = s.buffer.memory := by
  unfold IByteStream.read xsgetn
  split
  · dsimp only
    split <;> rfl
  · rfl

theorem over_of_reading (h : s.Over data) {s' : IByteStream} (hr : Reading s s')
    (hm : s'.buffer.memory = s.buffer.memory) : s'.Over data :=
  ⟨hr.inv, hm.trans h.memory, hr.last.trans h.last⟩

theorem over_moveTo (h : s.Over data) {x : Int} (hnonneg : 0 ≤ x) (hle : x ≤ data.length) :
    (moveTo s x).Over data := by
  have hi := h.inv
  refine ⟨⟨⟨hi.put.getFirst, hi.put.putFirst, hi.put.next_nonneg, hi.put.next_le,
    hi.put.getLast_nonneg, hi.put.getLast_le, hi.put.length, hi.put.read, hi.put.write⟩,
    ?_, ?_, hi.written, hi.written_le⟩, h.memory, h.last⟩
  · change 0 ≤ s.buffer.getArea.first + x
    rw [hi.put.getFirst]
    omega
  · change s.buffer.getArea.first + x ≤ s.buffer.getArea.last
    rw [hi.put.getFirst, h.last]
    omega

theorem unread_moveTo (h : s.Over data) {x : Int} (hnonneg : 0 ≤ x) (hle : x ≤ data.length) :
    (moveTo s x).unread = data.drop x.toNat := by
  rw [(over_moveTo h hnonneg hle).unread]
  change data.drop (s.buffer.getArea.first + x).toNat = _
  rw [h.inv.put.getFirst, zero_add]

/-- A move to where the stream is. -/
theorem moveTo_next (h : s.Over data) : moveTo s s.buffer.getArea.next = s := by
  have hsum : s.buffer.getArea.first + s.buffer.getArea.next = s.buffer.getArea.next := by
    rw [h.inv.put.getFirst, zero_add]
  unfold moveTo moveGet setg
  rw [hsum]

theorem moveTo_moveTo (s : IByteStream) (x y : Int) : moveTo (moveTo s x) y = moveTo s y := rfl

theorem currentPosition_moveTo (h : s.Over data) {x : Int} (hnonneg : 0 ≤ x)
    (hle : x ≤ data.length) : (moveTo s x).currentPosition = x := by
  rw [currentPosition_eq (over_moveTo h hnonneg hle).inv]
  change s.buffer.getArea.first + x = x
  rw [h.inv.put.getFirst, zero_add]

/-! ### Seeks -/

/-- The positions that a stream can be moved to. An empty stream has none. -/
theorem within_iff (h : s.Over data) (x : Int) :
    s.buffer.Within s.buffer.getArea x ↔ data ≠ [] ∧ 0 ≤ x ∧ x ≤ data.length := by
  unfold Within
  rw [h.allocated, h.last, h.inv.put.getFirst, sub_zero]

theorem seekoff_get (hread : s.buffer.read = true) (off : Int) (way : SeekDir) :
    s.buffer.seekoff off way true false =
      if s.buffer.Within s.buffer.getArea (seekOrigin s.buffer.getArea way + off) then
        (seekOrigin s.buffer.getArea way,
          moveGet s.buffer (seekOrigin s.buffer.getArea way + off))
      else (-1, s.buffer) := by
  unfold seekoff
  rw [if_neg (by simp), hread, Bool.and_false, Bool.and_true, if_pos rfl, seekGet_eq]
  by_cases hin : s.buffer.Within s.buffer.getArea (seekOrigin s.buffer.getArea way + off)
  · rw [if_pos hin, if_pos hin]
    rfl
  · rw [if_neg hin, if_neg hin]

theorem seekpos_get (hread : s.buffer.read = true) (pos : Int) :
    s.buffer.seekpos pos true false =
      if s.buffer.Within s.buffer.getArea pos then (pos, moveGet s.buffer pos)
      else (-1, s.buffer) := by
  unfold seekpos
  rw [hread, Bool.and_false, Bool.and_true, if_pos rfl, seekposGet_eq]
  by_cases hin : s.buffer.Within s.buffer.getArea pos
  · rw [if_pos hin, if_pos hin]
    rfl
  · rw [if_neg hin, if_neg hin]

theorem seekOrigin_nonneg (hi : s.buffer.Inv) (way : SeekDir) :
    0 ≤ seekOrigin s.buffer.getArea way := by
  have hfirst := hi.put.getFirst
  have hnext := hi.next_nonneg
  have hlast := hi.put.getLast_nonneg
  cases way <;> simp only [seekOrigin] <;> omega

/-- A seek moves to a position in the data, and fails for any other one. -/
theorem seekg_eq (h : s.Over data) (hgood : s.good = true) (off : Int) (way : SeekDir) :
    s.seekg off way =
      if data ≠ [] ∧ 0 ≤ seekOrigin s.buffer.getArea way + off ∧
          seekOrigin s.buffer.getArea way + off ≤ data.length then
        moveTo s (seekOrigin s.buffer.getArea way + off)
      else { s with good := false } := by
  have horigin := seekOrigin_nonneg h.inv way
  have hreturned : seekOrigin s.buffer.getArea way ≠ -1 := by omega
  unfold seekg moveTo
  rw [if_pos hgood, seekoff_get h.inv.put.read]
  simp only [within_iff h]
  split
  · simp [hreturned, hgood]
  · simp

theorem seekgPos_eq (h : s.Over data) (hgood : s.good = true) (pos : Int) :
    s.seekgPos pos =
      if data ≠ [] ∧ 0 ≤ pos ∧ pos ≤ data.length then moveTo s pos
      else { s with good := false } := by
  unfold seekgPos moveTo
  rw [if_pos hgood, seekpos_get h.inv.put.read]
  simp only [within_iff h]
  split
  · next hin =>
    have hreturned : pos ≠ -1 := by omega
    simp [hreturned, hgood]
  · simp

/-- The position of a stream over bytes; it stays where it is. -/
theorem tellg_eq (h : s.Over data) (hgood : s.good = true) (hne : data ≠ []) :
    s.tellg = (s.buffer.getArea.next, s) := by
  have hfirst := h.inv.put.getFirst
  have hnext := h.inv.next_nonneg
  have hle := h.inv.next_le
  have hlast := h.last
  have hcur : seekOrigin s.buffer.getArea .cur = s.buffer.getArea.next := by
    simp [seekOrigin, hfirst]
  have hstays : moveGet s.buffer s.buffer.getArea.next = s.buffer :=
    congrArg IByteStream.buffer (moveTo_next h)
  unfold tellg
  rw [if_pos hgood, seekoff_get h.inv.put.read, hcur, add_zero,
    if_pos ((within_iff h _).mpr ⟨hne, hnext, by omega⟩)]
  dsimp only
  rw [hstays]

/-! ### Runs -/

theorem over_seekg (h : s.Over data) (off : Int) (way : SeekDir) : (s.seekg off way).Over data := by
  cases hgood : s.good with
  | false => simpa [seekg, hgood] using h
  | true =>
    rw [seekg_eq h hgood]
    split
    · next hin => exact over_moveTo h hin.2.1 hin.2.2
    · exact ⟨h.inv, h.memory, h.last⟩

theorem over_seekgPos (h : s.Over data) (pos : Int) : (s.seekgPos pos).Over data := by
  cases hgood : s.good with
  | false => simpa [seekgPos, hgood] using h
  | true =>
    rw [seekgPos_eq h hgood]
    split
    · next hin => exact over_moveTo h hin.2.1 hin.2.2
    · exact ⟨h.inv, h.memory, h.last⟩

theorem over_readVector (h : s.Over data) (bytes : List UInt8) :
    (s.readVector bytes).2.Over data := by
  refine over_of_reading h (reading_readVector h.inv bytes) ?_
  unfold readVector
  dsimp only
  split
  · exact memory_read s _
  · rfl

theorem over_access (h : s.Over data) (a : Access) : (s.access a).Over data := by
  cases a with
  | read n => exact over_of_reading h (reading_read h.inv n) (memory_read s n)
  | value order value =>
    refine over_of_reading h (reading_deserialize order h.inv value) ?_
    unfold access deserialize
    dsimp only
    split
    · exact memory_read s _
    · rfl
  | vector bytes => exact over_readVector h bytes
  | seekg off way => exact over_seekg h off way
  | seekgPos pos => exact over_seekgPos h pos

end PositionsLemmas

open PositionsLemmas

/-- Whatever is done with a stream over bytes, it stays over them. -/
theorem over_run (data : List UInt8) (accesses : List Access) :
    (accesses.foldl access (ofBytes data)).Over data := by
  have hstep : ∀ s : IByteStream, s.Over data → (accesses.foldl access s).Over data := by
    induction accesses with
    | nil => exact fun s h => h
    | cons a rest ih => exact fun s h => ih _ (over_access h a)
  exact hstep _ (over_ofBytes data)

end Stormancer.Streams.IByteStream
