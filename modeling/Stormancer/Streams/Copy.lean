import Stormancer.Streams.IByteStream

/-!
# Copies from a stream to a stream

`output << input` writes what the input has left in one block and seeks the input to its end. The
buffer of an empty stream has no memory, so that the seek by no bytes fails. A stream with content
that has nothing left stays good, and so does an empty stream when `>>` finds nothing to read.

Results:
1. `copy_fst`, `copy_snd`: what a copy writes and where it leaves the input.
2. `copies_iff`: a copy does what it should exactly when the input has content and is good, and the
   bytes of the output stay fewer than `2 ^ 31`.
3. `empty_copy_fails`: the copy of an empty stream leaves it not good.
-/

namespace Stormancer.Streams.OByteStream

open ByteStreamBuf IByteStream

/-- `obytestream::operator<<(ibytestream&)`. -/
def copy (out : OByteStream) (input : IByteStream) : OByteStream × IByteStream :=
  (out.write (input.buffer.copy input.buffer.getArea.next input.availableSize),
    input.seekg input.availableSize .cur)

/-! ## The property -/

/-- The input is over the data and the output holds `held`. A copy appends what is unread, leaves
both streams good and nothing to read, and after a seek to the start all of the data is read. -/
structure Copies (out : OByteStream) (held : List UInt8) (input : IByteStream)
    (data : List UInt8) : Prop where
  appended : (out.copy input).1.bytes = some (held ++ input.unread)
  outputGood : (out.copy input).1.good = true
  inputGood : (out.copy input).2.good = true
  available : (out.copy input).2.availableSize = 0
  rewound : ((out.copy input).2.seekg 0 .beg).bytes = data
  readAgain : (((out.copy input).2.seekg 0 .beg).readVector []).1 = data

namespace CopyLemmas

open OByteStreamLemmas IByteStreamLemmas PositionsLemmas

variable {m : Machine} {out : OByteStream} {s : IByteStream} {held data : List UInt8}

theorem availableSize_eq (h : s.Over data) : s.availableSize = s.unread.length :=
  inAvail_eq h.inv

/-- The block that is written is what is unread. -/
theorem copy_fst (out : OByteStream) (h : s.Over data) : (out.copy s).1 = out.write s.unread := by
  have hlength := length_unread h.inv
  have hnonneg := h.inv.next_nonneg
  have hblock : s.buffer.copy s.buffer.getArea.next s.availableSize = s.unread := by
    unfold ByteStreamBuf.copy IByteStream.unread content
    rw [List.drop_take, availableSize_eq h]
    congr 1
    omega
  unfold OByteStream.copy
  rw [hblock]

/-- The input is at its end, unless it is empty. -/
theorem copy_snd (out : OByteStream) (h : s.Over data) (hgood : s.good = true) :
    (out.copy s).2 = if data = [] then { s with good := false } else moveTo s data.length := by
  have hlength := length_unread h.inv
  have hlast := h.last
  have hend : seekOrigin s.buffer.getArea .cur + s.availableSize = data.length := by
    rw [availableSize_eq h]
    simp only [seekOrigin, h.inv.put.getFirst]
    omega
  unfold OByteStream.copy
  rw [seekg_eq h hgood, hend]
  by_cases hnil : data = [] <;> simp [hnil]

theorem bytes_eq (h : s.Over data) (hgood : s.good = true) : s.bytes = data := by
  have hlast := h.last
  unfold IByteStream.bytes ByteStreamBuf.size ByteStreamBuf.copy
  rw [if_pos hgood, h.inv.put.write, if_pos rfl, h.inv.put.getFirst, h.memory, hlast]
  by_cases hnil : data = [] <;> simp [hnil]

/-- A stream with content that is good is rewound. -/
theorem seekg_start (h : s.Over data) (hgood : s.good = true) (hne : data ≠ []) :
    s.seekg 0 .beg = moveTo s 0 := by
  rw [seekg_eq h hgood, if_pos ⟨hne, by simp [seekOrigin]⟩]
  rfl

theorem rewound_eq (h : s.Over data) (hgood : s.good = true) (hne : data ≠ []) :
    (s.seekg 0 .beg).bytes = data ∧ ((s.seekg 0 .beg).readVector []).1 = data := by
  have hover := over_moveTo h (le_refl 0) (Int.natCast_nonneg data.length)
  have hunread := unread_moveTo h (le_refl 0) (Int.natCast_nonneg data.length)
  have hread := (readVector_of_unread hover.inv hgood []).1
  rw [seekg_start h hgood hne]
  refine ⟨bytes_eq hover hgood, ?_⟩
  rw [hread, hunread]
  simp [hne]

theorem copies_of_content (ho : out.Holds held) (h : s.Over data) (hgood : s.good = true)
    (hne : data ≠ []) (hsmall : held.length + s.unread.length < 0x80000000) :
    Copies out held s data := by
  have hwritten := write_holds ho s.unread hsmall
  have hover := over_moveTo h (Int.natCast_nonneg data.length) (le_refl _)
  have hnone := unread_moveTo h (Int.natCast_nonneg data.length) (le_refl _)
  have hrewound := rewound_eq hover hgood hne
  have hinput := copy_snd out h hgood
  rw [if_neg hne] at hinput
  refine ⟨?_, ?_, ?_, ?_, ?_, ?_⟩
  · rw [copy_fst out h]
    exact bytes_of_holds hwritten
  · rw [copy_fst out h]
    exact hwritten.good
  · rw [hinput]
    exact hgood
  · rw [hinput, availableSize_eq hover, hnone]
    simp
  · rw [hinput]
    exact hrewound.1
  · rw [hinput]
    exact hrewound.2

/-- A seek does not make a stream good. -/
theorem good_of_copy (h : (out.copy s).2.good = true) : s.good = true := by
  cases hgood : s.good with
  | true => rfl
  | false => simp [OByteStream.copy, seekg, hgood] at h

theorem content_of_copies (h : s.Over data) (hc : Copies out held s data) : data ≠ [] := by
  intro hnil
  have hstill := hc.inputGood
  rw [copy_snd out h (good_of_copy hstill), if_pos hnil] at hstill
  cases hstill

theorem small_of_copies {writes : List Write} (h : s.Over data)
    (hc : Copies (create.run m writes) (written m writes) s data) :
    (written m writes).length + s.unread.length < 0x80000000 := by
  have hrun : ((create.run m writes).copy s).1 = create.run m (writes ++ [.block s.unread]) := by
    rw [copy_fst _ h, run, run, List.foldl_append]
    rfl
  have hbytes := hc.appended
  rw [hrun] at hbytes
  have hlt := length_bytes_lt hbytes
  rwa [List.length_append] at hlt

end CopyLemmas

open CopyLemmas OByteStreamLemmas

/-! ## Results -/

/-- For every output and every input, at any position that it was moved to. -/
theorem copies_iff (m : Machine) (writes : List Write) (data : List UInt8)
    (accesses : List Access) :
    Copies (create.run m writes) (written m writes) (accesses.foldl access (ofBytes data)) data ↔
      data ≠ [] ∧ (accesses.foldl access (ofBytes data)).good = true ∧
        (written m writes).length + (accesses.foldl access (ofBytes data)).unread.length <
          0x80000000 := by
  have hover := over_run data accesses
  constructor
  · intro h
    exact ⟨content_of_copies hover h, good_of_copy h.inputGood, small_of_copies hover h⟩
  · rintro ⟨hne, hgood, hsmall⟩
    have hheld : (create.run m writes).Holds (written m writes) := run_create_holds (by omega)
    exact copies_of_content hheld hover hgood hne hsmall

/-- Nothing is copied from an empty stream to a new one, and the input is not good after it. -/
theorem empty_copy_fails : ¬ Copies create [] (ofBytes []) [] := by
  intro h
  exact absurd h.inputGood (by decide)

end Stormancer.Streams.OByteStream
