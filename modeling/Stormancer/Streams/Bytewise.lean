import Stormancer.Streams.Pointers

/-!
# Writes byte by byte

`sputc` writes inside the put area, and `overflow` neither grows the buffer nor succeeds. `xsputn`
grows the buffer, and it moves the end of the get area, which `sputc` leaves.

Results:
1. `sputcs_of_fits`, `sputcs_of_not_fits`: what is written byte by byte.
2. `xsputn_of_dynamic`: a dynamic buffer takes every block.
3. `bytewise_iff`: when both ways of writing agree.
-/

namespace Stormancer.Streams.ByteStreamBuf

/-- The bytes from `pbase` to `pptr`. -/
def writtenBytes (s : ByteStreamBuf) : List UInt8 :=
  (s.memory.getD []).take s.putArea.next.toNat

/-- Byte by byte and as a block, the data is written with the same success and gives the same
bytes up to the put position. -/
structure SameWrite (s : ByteStreamBuf) (data : List UInt8) : Prop where
  success : (s.sputcs data).1 = true ↔ (s.xsputn data).1 = data.length
  writtenBytes : (s.sputcs data).2.writtenBytes = (s.xsputn data).2.writtenBytes

/-- The same bytes can be read too. -/
structure SameContent (s : ByteStreamBuf) (data : List UInt8) : Prop extends SameWrite s data where
  content : (s.sputcs data).2.content = (s.xsputn data).2.content

/-- The data fits into the put area, and it ends at an offset that is an `int`. -/
def Fits (s : ByteStreamBuf) (data : List UInt8) : Prop :=
  s.putArea.next + data.length ≤ s.putArea.last ∧ s.putArea.next + data.length < 0x80000000

namespace BytewiseLemmas

open PointersLemmas

variable {s : ByteStreamBuf}

/-! ## Byte by byte -/

theorem sputcs_of_fits (hs : s.PutSound) {data : List UInt8}
    (hfits : s.putArea.next + data.length ≤ s.putArea.last) :
    ∃ written, s.sputcs data = (true, { s with
      memory := s.memory.map (Bytes.overwrite · s.putArea.next.toNat data)
      putArea := ⟨s.putArea.first, s.putArea.next + data.length, s.putArea.last⟩
      written := written }) := by
  induction data generalizing s with
  | nil =>
    refine ⟨s.written, ?_⟩
    have hsame : s.memory.map (Bytes.overwrite · s.putArea.next.toNat []) = s.memory := by
      simp [Bytes.overwrite_nil]
    rw [hsame, List.length_nil, Int.natCast_zero, Int.add_zero]
    rfl
  | cons c rest ih =>
    rw [List.length_cons, Nat.cast_succ] at hfits
    have hnonneg := hs.next_nonneg
    have hlt : s.putArea.next < s.putArea.last := by omega
    have hput : s.sputc c = (true, { (s.setByte s.putArea.next c).pbump 1 with
        written := max s.written (s.putArea.next + 1) }) := if_pos hlt
    have hs₁ := putSound_sputc hs c
    rw [hput] at hs₁
    obtain ⟨written, hrest⟩ := ih hs₁ (by
      change s.putArea.next + 1 + _ ≤ s.putArea.last
      omega)
    refine ⟨written, ?_⟩
    have hmemory : (s.memory.map fun m => m.set s.putArea.next.toNat c).map
        (Bytes.overwrite · (s.putArea.next + 1).toNat rest) =
          s.memory.map (Bytes.overwrite · s.putArea.next.toNat (c :: rest)) := by
      have hlength := hs.length
      cases hm : s.memory with
      | none => rfl
      | some m =>
        simp only [hm, Option.getD_some] at hlength
        have hnext : (s.putArea.next + 1).toNat = s.putArea.next.toNat + [c].length := by
          rw [List.length_singleton]
          omega
        rw [Option.map_some, Option.map_some, Option.map_some,
          Bytes.set_eq_overwrite (by omega), hnext, Bytes.overwrite_append (by omega)]
        rfl
    have hend : s.putArea.next + 1 + (rest.length : Int) = s.putArea.next + (rest.length + 1) := by
      omega
    rw [sputcs, hput]
    dsimp only
    rw [hrest]
    simp only [pbump, setByte, hmemory, hend, List.length_cons, Nat.cast_succ]

theorem sputcs_of_not_fits (hs : s.PutSound) {data : List UInt8}
    (hfits : s.putArea.last < s.putArea.next + data.length) : (s.sputcs data).1 = false := by
  induction data generalizing s with
  | nil =>
    have hle := hs.next_le
    rw [List.length_nil] at hfits
    omega
  | cons c rest ih =>
    rw [List.length_cons, Nat.cast_succ] at hfits
    have hs₁ := putSound_sputc hs c
    by_cases hlt : s.putArea.next < s.putArea.last
    · have hput : s.sputc c = (true, { (s.setByte s.putArea.next c).pbump 1 with
          written := max s.written (s.putArea.next + 1) }) := if_pos hlt
      rw [hput] at hs₁
      rw [sputcs, hput]
      refine ih hs₁ ?_
      change s.putArea.last < s.putArea.next + 1 + _
      omega
    · have hle := hs.next_le
      rw [sputcs, sputc_of_full hs (by omega)]

/-! ## As a block -/

theorem toInt_le {x : Int} (h : 0 ≤ x) : toInt x ≤ x := by
  by_cases hsmall : x < 0x80000000
  · exact Int.le_of_eq (toInt_of_lt h hsmall)
  · have hlt := toInt_lt x
    omega

theorem room_grow {n : Int} (hs : s.PutSound) (hd : s.dynamic = true) (hn : 0 < n) :
    n ≤ (s.grow (n + (s.putArea.next - s.putArea.first))).room := by
  have hnonneg := hs.next_nonneg
  have hoffset := toInt_le hnonneg
  have hmin : 0 < n + (s.putArea.next - s.putArea.first) := by
    rw [hs.putFirst]
    omega
  have hold : 0 ≤ if s.isAllocated then s.putArea.last - s.putArea.first else 0 := by
    have hle := hs.next_le
    have hfirst := hs.putFirst
    split <;> omega
  obtain ⟨hsize, -, -⟩ := grownSize_spec hold hmin
  unfold grow
  rw [if_pos ⟨hmin, hd⟩]
  dsimp only
  generalize (if s.isAllocated then s.putArea.last - s.putArea.first else 0) = oldSize at *
  generalize grownSize oldSize _ = size at *
  have hinit : init size = _ := if_pos (by omega)
  rw [hinit, hs.putFirst] at *
  split
  · simp only [setg, setp, pbump, room, isAllocated, Option.map_some, Option.isSome_some, if_true]
    rw [sub_zero]
    omega
  · simp only [room, isAllocated, Option.isSome_some, if_true]
    omega

/-- A dynamic buffer takes every block. -/
theorem xsputn_of_dynamic (hs : s.PutSound) (hd : s.dynamic = true) (data : List UInt8) :
    (s.xsputn data).1 = data.length := by
  by_cases hne : data = []
  · subst hne
    rfl
  have hpos : 0 < data.length := List.length_pos_of_ne_nil hne
  have hroom : data.length ≤ (s.reserve data.length).room := by
    unfold reserve
    split
    · exact room_grow hs hd (by omega)
    · next hfits =>
      have hlt : ¬ s.room < data.length := fun h => hfits ⟨h, hd⟩
      omega
  unfold xsputn
  rw [if_pos ⟨hne, hs.write⟩]
  dsimp only
  rw [min_eq_right hroom, if_pos (by omega)]

/-- A block that ends beyond the offsets that are an `int` moves the put position back. -/
theorem store_next (data : List UInt8) (s : ByteStreamBuf) :
    (s.store data).putArea.next =
      s.putArea.first + toInt (s.putArea.next + data.length - s.putArea.first) := by
  unfold store updateReadAfterWrite
  dsimp only
  split <;> rfl

/-! ## Both -/

theorem sameContent_nil (s : ByteStreamBuf) : SameContent s [] := by
  have hput : s.xsputn [] = (0, s) := if_neg (by simp)
  refine ⟨⟨?_, ?_⟩, ?_⟩
  · rw [hput]
    exact ⟨fun _ => rfl, fun _ => rfl⟩
  · rw [hput]
    rfl
  · rw [hput]
    rfl

theorem sameWrite_of_fits (hs : s.PutSound) {data : List UInt8} (hne : data ≠ [])
    (hfits : s.Fits data) : SameWrite s data := by
  obtain ⟨written, hbytes⟩ := sputcs_of_fits hs hfits.1
  have hblock := xsputn_of_fits hs hne hfits.1
  have hwrote := store_spec hs hne hfits.1 hfits.2
  have hnonneg := hs.next_nonneg
  have hle := hs.next_le
  have hlength := hs.length
  refine ⟨?_, ?_⟩
  · rw [hbytes, hblock]
    exact ⟨fun _ => rfl, fun _ => rfl⟩
  · rw [hbytes, hblock]
    unfold ByteStreamBuf.writtenBytes
    rw [hwrote.memory]
    cases hm : s.memory with
    | none =>
      simp only [hm, Option.getD_none, List.length_nil] at hlength
      have hpos : 0 < data.length := List.length_pos_of_ne_nil hne
      have hend := hfits.1
      omega
    | some m =>
      simp only [hm, Option.getD_some] at hlength
      have hend : (s.putArea.next + data.length).toNat = s.putArea.next.toNat + data.length := by
        omega
      rw [Option.map_some, Option.getD_some, Option.getD_some, hend,
        Bytes.take_overwrite (by omega)]

theorem length_overwritten (hs : s.PutSound) {data : List UInt8}
    (hfits : s.putArea.next + data.length ≤ s.putArea.last) :
    ((s.memory.map (Bytes.overwrite · s.putArea.next.toNat data)).getD []).length =
      s.putArea.last.toNat := by
  have hnonneg := hs.next_nonneg
  have hsize := hs.length
  cases hm : s.memory with
  | none =>
    simp only [hm, Option.getD_none, List.length_nil] at hsize
    rw [Option.map_none, Option.getD_none, List.length_nil]
    omega
  | some m =>
    simp only [hm, Option.getD_some] at hsize
    rw [Option.map_some, Option.getD_some, Bytes.length_overwrite (by omega)]
    omega

/-- A block that ends beyond the offsets that are an `int` leaves fewer bytes before the put
position than were written. -/
theorem not_sameWrite_of_large (hs : s.PutSound) {data : List UInt8} (hne : data ≠ [])
    (hfits : s.putArea.next + data.length ≤ s.putArea.last)
    (hlarge : 0x80000000 ≤ s.putArea.next + data.length) : ¬ SameWrite s data := by
  intro hsame
  obtain ⟨written, hbytes⟩ := sputcs_of_fits hs hfits
  have hblock := xsputn_of_fits hs hne hfits
  have hlt := toInt_lt (s.putArea.next + data.length - s.putArea.first)
  have hnext := store_next data s
  rw [hs.putFirst] at hnext hlt
  have hlength := length_overwritten hs hfits
  have hequal := congrArg List.length hsame.writtenBytes
  rw [hbytes, hblock] at hequal
  unfold ByteStreamBuf.writtenBytes at hequal
  dsimp only at hequal
  rw [List.length_take, List.length_take, hlength] at hequal
  omega

theorem sameWrite_iff (hs : s.PutSound) (hd : s.dynamic = true) (data : List UInt8) :
    SameWrite s data ↔ data = [] ∨ s.Fits data := by
  by_cases hne : data = []
  · subst hne
    exact ⟨fun _ => .inl rfl, fun _ => (sameContent_nil s).toSameWrite⟩
  constructor
  · intro hsame
    right
    by_cases hfits : s.putArea.next + data.length ≤ s.putArea.last
    · refine ⟨hfits, ?_⟩
      by_contra hlarge
      exact not_sameWrite_of_large hs hne hfits (by omega) hsame
    · have hsuccess := hsame.success.mpr (xsputn_of_dynamic hs hd data)
      rw [sputcs_of_not_fits hs (by omega)] at hsuccess
      cases hsuccess
  · rintro (hnil | hfits)
    · exact absurd hnil hne
    · exact sameWrite_of_fits hs hne hfits

/-- When the data fits, the bytes that can be read are the same exactly when the get area ends
where the data does. -/
theorem content_iff_of_fits (hs : s.PutSound) {data : List UInt8} (hne : data ≠ [])
    (hfits : s.Fits data) : (s.sputcs data).2.content = (s.xsputn data).2.content ↔
      s.getArea.last = s.putArea.next + data.length := by
  obtain ⟨written, hbytes⟩ := sputcs_of_fits hs hfits.1
  have hsame := (sameWrite_of_fits hs hne hfits).writtenBytes
  have hwrote := store_spec hs hne hfits.1 hfits.2
  rw [xsputn_of_fits hs hne hfits.1] at hsame ⊢
  have hread : (s.store data).content = (s.store data).writtenBytes := by
    unfold content ByteStreamBuf.writtenBytes
    rw [hwrote.getLast]
  rw [hread, ← hsame, hbytes]
  unfold content ByteStreamBuf.writtenBytes
  dsimp only
  have hnonneg := hs.next_nonneg
  have hlast := hs.getLast_nonneg
  have hlastLe := hs.getLast_le
  have hend := hfits.1
  constructor
  · intro hequal
    have hlength := length_overwritten hs hend
    have htake := congrArg List.length hequal
    rw [List.length_take, List.length_take, hlength] at htake
    omega
  · intro hequal
    rw [hequal]

end BytewiseLemmas

open BytewiseLemmas PointersLemmas

/-! ## When both agree -/

/-- In a dynamic buffer, writing byte by byte has the same success and writes the same bytes as
one block exactly when nothing is written or no growth is needed, and the same bytes can be read
exactly when the get area ends, too, where the data does. -/
theorem bytewise_iff {initial : List UInt8} {isDynamic : Bool} {s : ByteStreamBuf}
    (h : Lts.Reachable step PutsInt (create initial isDynamic) s) (hd : s.dynamic = true)
    (data : List UInt8) :
    (SameWrite s data ↔ data = [] ∨ s.Fits data) ∧
      (SameContent s data ↔
        data = [] ∨ s.Fits data ∧ s.getArea.last = s.putArea.next + data.length) := by
  have hs : s.PutSound := h.invariant (inv_create initial isDynamic).put fun _ _ _ hs hg hstep =>
    putSound_step hs hg hstep
  have hwrite := sameWrite_iff hs hd data
  refine ⟨hwrite, ?_⟩
  by_cases hne : data = []
  · subst hne
    exact ⟨fun _ => .inl rfl, fun _ => sameContent_nil s⟩
  constructor
  · intro hsame
    rcases hwrite.mp hsame.toSameWrite with hnil | hfits
    · exact absurd hnil hne
    · exact .inr ⟨hfits, (content_iff_of_fits hs hne hfits).mp hsame.content⟩
  · rintro (hnil | ⟨hfits, hend⟩)
    · exact absurd hnil hne
    · exact ⟨hwrite.mpr (.inr hfits), (content_iff_of_fits hs hne hfits).mpr hend⟩

theorem bytewise_iff_after_write :
    ∃ s, Lts.Reachable step PutsInt (create [] true) s ∧ SameWrite s [3, 4] ∧
      ¬ SameContent s [3, 4] := by
  obtain ⟨s, hs, hp⟩ := Lts.Reachable.of_exec step PutsInt (create [] true) [.sputn [1, 2]]
    (fun s => s.dynamic = true ∧ s.putArea = ⟨0, 2, 32⟩ ∧ s.getArea = ⟨0, 0, 2⟩)
    (by decide +kernel)
  simp only [decide_eq_true_eq] at hp
  obtain ⟨hd, hput, hget⟩ := hp
  obtain ⟨hwrite, hcontent⟩ := bytewise_iff hs hd [3, 4]
  refine ⟨s, hs, hwrite.mpr (.inr ?_), fun hsame => ?_⟩
  · unfold Fits
    rw [hput]
    decide
  · rcases hcontent.mp hsame with hnil | ⟨-, hend⟩
    · cases hnil
    · rw [hget, hput] at hend
      revert hend
      decide

/-- An empty buffer takes a block of one byte, and `sputc` fails. -/
theorem sputc_fails_where_sputn_grows :
    ((create [] true).sputcs [1]).1 = false ∧ ((create [] true).xsputn [1]).1 = 1 ∧
      ¬ SameWrite (create [] true) [1] := by
  have hbytes : ((create [] true).sputcs [1]).1 = false := by decide +kernel
  have hblock : ((create [] true).xsputn [1]).1 = 1 := by decide +kernel
  refine ⟨hbytes, hblock, fun hsame => ?_⟩
  have hsuccess := hsame.success.mpr hblock
  rw [hbytes] at hsuccess
  cases hsuccess

end Stormancer.Streams.ByteStreamBuf
