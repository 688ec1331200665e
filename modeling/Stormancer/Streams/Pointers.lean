import Stormancer.Lib.Run
import Stormancer.Streams.ByteStreamBuf

/-!
# The pointers of a stream buffer

Reads and writes share the block of memory, and a write moves the end of the get area to the put
position. Nothing moves the read position when it is behind that, so a write before the read
position takes the get area out of order.

Results:
1. `grow_spec`, `xsputn_spec`: what the growth of a buffer and a block write change.
2. `pointers_ordered`: in every run whose steps meet `Meets`, the pointers of both areas are in
   order and no read goes beyond the content.
3. `write_before_read_position`: without the condition `egptr` gets before `gptr`.
-/

namespace Stormancer.Streams.ByteStreamBuf

/-! ## The property -/

/-- The bytes that can be read, from `eback` to `egptr`. -/
def content (s : ByteStreamBuf) : List UInt8 := (s.memory.getD []).take s.getArea.last.toNat

/-- The pointers of both areas are in order. -/
structure Ordered (s : ByteStreamBuf) : Prop where
  eback_le_gptr : s.getArea.first ≤ s.getArea.next
  gptr_le_egptr : s.getArea.next ≤ s.getArea.last
  pbase_le_pptr : s.putArea.first ≤ s.putArea.next
  pptr_le_epptr : s.putArea.next ≤ s.putArea.last

/-- The count of the available bytes is not negative, the content ends where what was written
ends, and every read gives the next bytes of the content. -/
structure ReadsContent (s : ByteStreamBuf) : Prop where
  showmanyc : 0 ≤ s.showmanyc
  inAvail : 0 ≤ s.inAvail
  written : s.getArea.last ≤ s.written
  sgetn : ∀ n, 0 ≤ n →
    (s.xsgetn n).1 = (s.content.drop s.getArea.next.toNat).take n.toNat
  sgetc : s.sgetc = s.content[s.getArea.next.toNat]?
  sbumpc : s.sbumpc.1 = s.content[s.getArea.next.toNat]?

/-! ## The condition -/

/-- The number of bytes that a block write takes. -/
def accepted (s : ByteStreamBuf) (data : List UInt8) : Int :=
  if s.dynamic then data.length else min s.room data.length

/-- A put seek that is carried out goes to an offset that is an `int`. -/
def SeeksInt (s : ByteStreamBuf) (target : Int) : Prop :=
  target ≤ s.putArea.last → target < 0x80000000

/-- The put positions that the step converts to `int` fit. -/
def PutsInt (s : ByteStreamBuf) : Action → Prop
  | .sputn data => 0 < s.accepted data → s.putArea.next + s.accepted data < 0x80000000
  | .seekoff off way inn out => out = true → ¬ (inn = true ∧ way = .cur) →
    (inn = true → s.seekGet off way ≠ none) → s.SeeksInt (seekOrigin s.putArea way + off)
  | .seekpos pos inn out => out = true → (inn = true → s.seekposGet pos ≠ none) → s.SeeksInt pos
  | _ => True

/-- The condition on a step: the put positions fit, the number of bytes to read is not negative,
a block write does not end before the read position, and a single byte fits. -/
def Meets (s : ByteStreamBuf) (a : Action) : Prop :=
  s.PutsInt a ∧
    match a with
    | .sgetn n => 0 ≤ n
    | .sputn data => 0 < s.accepted data → s.getArea.next ≤ s.putArea.next + s.accepted data
    | .sputc _ => s.putArea.next < s.putArea.last
    | _ => True

instance (s : ByteStreamBuf) (target : Int) : Decidable (s.SeeksInt target) :=
  inferInstanceAs (Decidable (_ → _))

instance (s : ByteStreamBuf) : (a : Action) → Decidable (s.PutsInt a)
  | .sputn _ | .seekoff .. | .seekpos .. => by unfold PutsInt; infer_instance
  | .sgetn _ | .sgetc | .sbumpc | .sputc _ | .sputbackc _ | .sungetc | .dynamic _ | .setbuf _ =>
    inferInstanceAs (Decidable True)

instance (s : ByteStreamBuf) : (a : Action) → Decidable (s.Meets a)
  | .sgetn _ | .sputn _ | .sputc _ => by unfold Meets; infer_instance
  | .sgetc | .sbumpc | .seekoff .. | .seekpos .. | .sputbackc _ | .sungetc | .dynamic _
  | .setbuf _ => by unfold Meets; infer_instance

/-! ## The put area -/

/-- The put area is in order and spans the block, and the get area ends in it. -/
structure PutSound (s : ByteStreamBuf) : Prop where
  getFirst : s.getArea.first = 0
  putFirst : s.putArea.first = 0
  next_nonneg : 0 ≤ s.putArea.next
  next_le : s.putArea.next ≤ s.putArea.last
  getLast_nonneg : 0 ≤ s.getArea.last
  getLast_le : s.getArea.last ≤ s.putArea.last
  length : ((s.memory.getD []).length : Int) = s.putArea.last
  read : s.read = true
  write : s.write = true

/-- The get area is in order too, and what can be read was written. -/
structure Inv (s : ByteStreamBuf) : Prop where
  put : s.PutSound
  next_nonneg : 0 ≤ s.getArea.next
  next_le : s.getArea.next ≤ s.getArea.last
  written : s.getArea.last ≤ s.written
  written_le : s.written ≤ s.putArea.last

/-- What a block write of the bytes changes. -/
structure Wrote (s : ByteStreamBuf) (data : List UInt8) (s' : ByteStreamBuf) : Prop where
  sound : s'.PutSound
  next : s'.putArea.next = s.putArea.next + data.length
  memory : (s'.memory.getD []).take s'.putArea.next.toNat =
    (s.memory.getD []).take s.putArea.next.toNat ++ data
  getNext : s'.getArea.next = s.getArea.next ∨ s.putArea.last = 0 ∧ s'.getArea.next = 0
  getLast : s'.getArea.last = s'.putArea.next
  written : s'.written = max s.written s'.putArea.next
  last : s.putArea.last ≤ s'.putArea.last
  dynamic : s'.dynamic = s.dynamic

/-- What a growth for a write of `n` bytes changes. -/
structure Grew (n : Int) (s s' : ByteStreamBuf) : Prop where
  sound : s'.PutSound
  next : s'.putArea.next = s.putArea.next
  memory : ∃ zeros, s'.memory.getD [] = s.memory.getD [] ++ zeros
  getNext : s'.getArea.next = s.getArea.next ∨ s.putArea.last = 0 ∧ s'.getArea.next = 0
  written : s'.written = s.written
  dynamic : s'.dynamic = s.dynamic
  last : s.putArea.last ≤ s'.putArea.last
  room : s'.putArea.next + n ≤ s'.putArea.last

/-- Only the read position moves, and bytes of the block may change. With an ordered get area and
the condition `G` it stays in the get area. -/
def MovesRead (G : Prop) (s s' : ByteStreamBuf) : Prop :=
  ∃ memory next, (memory.getD []).length = (s.memory.getD []).length ∧
    (G → s.Inv → 0 ≤ next ∧ next ≤ s.getArea.last) ∧
    s' = { s with memory := memory, getArea := ⟨s.getArea.first, next, s.getArea.last⟩ }

/-- Only the put position moves, in the put area. -/
def MovesPut (s s' : ByteStreamBuf) : Prop :=
  ∃ next, 0 ≤ next ∧ next ≤ s.putArea.last ∧
    s' = { s with putArea := ⟨s.putArea.first, next, s.putArea.last⟩ }

namespace PointersLemmas

variable {s s' : ByteStreamBuf}

/-! ### Numbers -/

theorem toInt_of_lt {x : Int} (h₀ : 0 ≤ x) (h : x < 0x80000000) : toInt x = x := by
  unfold toInt
  exact Int.bmod_eq_of_le (by omega) (by omega)

theorem toInt_lt (x : Int) : toInt x < 0x80000000 := by
  unfold toInt
  exact Int.bmod_lt (by decide)

theorem doubleSize_spec (minSize : Int) (n : Nat) (newSize : Int) (h₀ : 0 < newSize)
    (hn : minSize - newSize ≤ n) : minSize ≤ doubleSize minSize n newSize ∧
      newSize ≤ doubleSize minSize n newSize ∧
      doubleSize minSize n newSize ≤ max newSize (2 * minSize) := by
  induction n generalizing newSize with
  | zero =>
    rw [doubleSize]
    omega
  | succ n ih =>
    rw [doubleSize]
    split
    · obtain ⟨hmin, hold, hmax⟩ := ih (newSize * 2) (by omega) (by omega)
      omega
    · omega

theorem grownSize_spec {oldSize minSize : Int} (hold : 0 ≤ oldSize) (hmin : 0 < minSize) :
    minSize ≤ grownSize oldSize minSize ∧ oldSize ≤ grownSize oldSize minSize ∧
      grownSize oldSize minSize ≤ max (max 32 oldSize) (2 * minSize) := by
  unfold grownSize
  split
  · obtain ⟨h₁, h₂, h₃⟩ := doubleSize_spec minSize minSize.toNat oldSize (by omega) (by omega)
    omega
  · obtain ⟨h₁, h₂, h₃⟩ := doubleSize_spec minSize minSize.toNat 32 (by omega) (by omega)
    omega

/-! ### Growth -/

theorem room_eq (hs : s.PutSound) : s.room = s.putArea.last - s.putArea.next := by
  unfold room isAllocated
  have hlength := hs.length
  have hnonneg := hs.next_nonneg
  have hle := hs.next_le
  cases hm : s.memory with
  | none =>
    simp only [hm, Option.getD_none, List.length_nil] at hlength
    simp only [Option.isSome_none, Bool.false_eq_true, if_false]
    omega
  | some m => simp

/-- A block that is grown keeps its bytes, and zeros follow. -/
theorem grow_spec {n : Int} (hs : s.PutSound) (hd : s.dynamic = true) (hroom : s.room < n)
    (hsmall : s.putArea.next + n < 0x80000000) :
    ∃ size, s.putArea.next + n ≤ size ∧ s.putArea.last ≤ size ∧
      s.grow (n + (s.putArea.next - s.putArea.first)) = { s with
        memory := some (s.memory.getD [] ++ List.replicate (size - s.putArea.last).toNat 0)
        getArea := if 0 < s.putArea.last then ⟨0, s.getArea.next, size⟩ else ⟨0, 0, 0⟩
        putArea := ⟨0, s.putArea.next, size⟩ } := by
  rw [room_eq hs] at hroom
  have holdSize : (if s.isAllocated then s.putArea.last - s.putArea.first else 0) =
      s.putArea.last := by
    have hlength := hs.length
    unfold isAllocated
    cases hm : s.memory with
    | none => simpa [hm] using hlength
    | some m => simp [hs.putFirst]
  obtain ⟨hgetFirst, hputFirst, hnonneg, hle, hlast, hlastLe, hlength, -, -⟩ := hs
  have hlastNonneg : 0 ≤ s.putArea.last := Int.le_trans hlast hlastLe
  have hmin : 0 < n + (s.putArea.next - s.putArea.first) := by omega
  obtain ⟨hsizeMin, hsizeOld, hsizeMax⟩ := grownSize_spec hlastNonneg hmin
  refine ⟨grownSize s.putArea.last (n + (s.putArea.next - s.putArea.first)), by omega, hsizeOld, ?_⟩
  unfold grow
  rw [if_pos ⟨hmin, hd⟩]
  dsimp only
  rw [holdSize]
  generalize grownSize s.putArea.last (n + (s.putArea.next - s.putArea.first)) = size at *
  have hinit : init size = _ := if_pos (by omega)
  rw [hinit]
  dsimp only
  have hmod : (size % 0x100000000).toNat = size.toNat := by omega
  have hoffset : toInt (s.putArea.next - s.putArea.first) = s.putArea.next := by
    rw [hputFirst, sub_zero]
    exact toInt_of_lt hnonneg (by omega)
  have hold : (s.memory.getD []).take s.putArea.last.toNat = s.memory.getD [] :=
    List.take_of_length_le (by omega)
  rw [hmod, hoffset, hold]
  split
  · next hpos =>
    have hmoved : Bytes.overwrite (List.replicate size.toNat 0) 0 (s.memory.getD []) =
        s.memory.getD [] ++ List.replicate (size - s.putArea.last).toNat 0 := by
      unfold Bytes.overwrite
      rw [List.take_zero, List.nil_append, List.drop_replicate]
      congr 2
      omega
    simp [setg, setp, pbump, hmoved, hgetFirst]
  · next hzero =>
    have hnull : s.putArea.last = 0 := by omega
    have hempty : s.memory.getD [] = [] := List.eq_nil_of_length_eq_zero (by omega)
    have hnext : s.putArea.next = 0 := by omega
    simp [hnull, hempty, hnext]

/-! ### Block writes -/

theorem store_spec {data : List UInt8} (hs : s.PutSound) (hne : data ≠ [])
    (hfits : s.putArea.next + data.length ≤ s.putArea.last)
    (hsmall : s.putArea.next + data.length < 0x80000000) : Wrote s data (s.store data) := by
  obtain ⟨hgetFirst, hputFirst, hnonneg, hle, hlast, hlastLe, hlength, hread, hwrite⟩ := hs
  have hpos : 0 < data.length := List.length_pos_of_ne_nil hne
  cases hm : s.memory with
  | none =>
    simp only [hm, Option.getD_none, List.length_nil] at hlength
    omega
  | some m =>
    simp only [hm, Option.getD_some] at hlength
    have hbump : toInt (s.putArea.next + data.length) = s.putArea.next + data.length :=
      toInt_of_lt (by omega) hsmall
    have heq : s.store data = { s with
        memory := some (Bytes.overwrite m s.putArea.next.toNat data)
        written := max s.written (s.putArea.next + data.length)
        putArea := ⟨0, s.putArea.next + data.length, s.putArea.last⟩
        getArea := ⟨0, s.getArea.next, s.putArea.next + data.length⟩ } := by
      simp [store, setp, pbump, updateReadAfterWrite, setg, hwrite, hread, hputFirst, hgetFirst,
        hm, hbump]
    have hinside : s.putArea.next.toNat + data.length ≤ m.length := by omega
    have hend : (s.putArea.next + data.length).toNat = s.putArea.next.toNat + data.length := by
      omega
    have hendNonneg : 0 ≤ s.putArea.next + data.length := by omega
    rw [heq]
    refine ⟨⟨rfl, rfl, hendNonneg, hfits, hendNonneg, hfits, ?_, hread, hwrite⟩, rfl, ?_, .inl rfl,
      rfl, rfl, Int.le_refl _, rfl⟩
    · rw [Option.getD_some, Bytes.length_overwrite hinside]
      exact hlength
    · rw [Option.getD_some, hend, Bytes.take_overwrite (by omega), hm, Option.getD_some]

theorem xsputn_of_fits {data : List UInt8} (hs : s.PutSound) (hne : data ≠ [])
    (hfits : s.putArea.next + data.length ≤ s.putArea.last) :
    s.xsputn data = ((data.length : Int), s.store data) := by
  have hroom := room_eq hs
  have hpos : 0 < data.length := List.length_pos_of_ne_nil hne
  have hreserve : s.reserve data.length = s := by
    unfold reserve
    rw [if_neg]
    omega
  have hmin : min s.room (data.length : Int) = data.length := by omega
  unfold xsputn
  rw [if_pos ⟨hne, hs.write⟩]
  dsimp only
  rw [hreserve, hmin, if_pos (by omega), Int.toNat_natCast, List.take_length]

theorem grew_of_grow {n : Int} (hs : s.PutSound) (hd : s.dynamic = true) (hroom : s.room < n)
    (hsmall : s.putArea.next + n < 0x80000000) :
    Grew n s (s.grow (n + (s.putArea.next - s.putArea.first))) := by
  obtain ⟨size, hmin, hold, heq⟩ := grow_spec hs hd hroom hsmall
  obtain ⟨hgetFirst, hputFirst, hnonneg, hle, hlast, hlastLe, hlength, hread, hwrite⟩ := hs
  rw [heq]
  refine ⟨⟨?_, rfl, hnonneg, Int.le_trans hle hold, ?_, ?_, ?_, hread, hwrite⟩, rfl, ⟨_, rfl⟩, ?_,
    rfl, rfl, hold, hmin⟩
  · dsimp only
    split <;> rfl
  · dsimp only
    split <;> dsimp only <;> omega
  · dsimp only
    split <;> dsimp only <;> omega
  · simp only [Option.getD_some, List.length_append, List.length_replicate]
    omega
  · dsimp only
    split
    · exact .inl rfl
    · exact .inr ⟨by omega, rfl⟩

/-- A write into a block that has grown is one into the block before. -/
theorem wrote_of_grew {n : Int} {s₁ : ByteStreamBuf} {data : List UInt8} (hs : s.PutSound)
    (hgrew : Grew n s s₁) (hwrote : Wrote s₁ data s') : Wrote s data s' := by
  have hlength := hs.length
  have hnonneg := hs.next_nonneg
  have hle := hs.next_le
  refine ⟨hwrote.sound, ?_, ?_, ?_, hwrote.getLast, ?_, Int.le_trans hgrew.last hwrote.last,
    hwrote.dynamic.trans hgrew.dynamic⟩
  · rw [hwrote.next, hgrew.next]
  · obtain ⟨zeros, hzeros⟩ := hgrew.memory
    rw [hwrote.memory, hgrew.next, hzeros, List.take_append_of_le_length (by omega)]
  · rcases hwrote.getNext with hsame | ⟨hzero, hnext⟩
    · rw [hsame]
      exact hgrew.getNext
    · have hlast := hgrew.last
      exact .inr ⟨by omega, hnext⟩
  · rw [hwrote.written, hgrew.written]

/-- A block write writes the bytes that are accepted, or it changes nothing. -/
theorem xsputn_spec (hs : s.PutSound) (data : List UInt8)
    (hsmall : 0 < s.accepted data → s.putArea.next + s.accepted data < 0x80000000) :
    (s.accepted data ≤ 0 ∧ s.xsputn data = (0, s)) ∨
      0 < s.accepted data ∧ (s.xsputn data).1 = s.accepted data ∧
        Wrote s (data.take (s.accepted data).toNat) (s.xsputn data).2 := by
  have hroom := room_eq hs
  have hle := hs.next_le
  by_cases hne : data = []
  · left
    subst hne
    refine ⟨?_, by simp [xsputn]⟩
    unfold accepted
    simp only [List.length_nil]
    split <;> omega
  have hpos : 0 < data.length := List.length_pos_of_ne_nil hne
  have hput : s.xsputn data =
      if 0 < min (s.reserve data.length).room data.length then
        (min (s.reserve data.length).room data.length,
          (s.reserve data.length).store
            (data.take (min (s.reserve data.length).room data.length).toNat))
      else (0, s.reserve data.length) := if_pos ⟨hne, hs.write⟩
  rw [hput]
  by_cases hgrow : s.room < data.length ∧ s.dynamic = true
  · -- The buffer grows and takes all bytes.
    right
    have haccepted : s.accepted data = data.length := if_pos hgrow.2
    rw [haccepted] at hsmall ⊢
    have hsmall := hsmall (by omega)
    have hreserve : s.reserve data.length =
        s.grow (data.length + (s.putArea.next - s.putArea.first)) := if_pos hgrow
    have hgrew := grew_of_grow hs hgrow.2 hgrow.1 hsmall
    rw [hreserve]
    generalize s.grow (data.length + (s.putArea.next - s.putArea.first)) = s₁ at hgrew
    have hfull := room_eq hgrew.sound
    have hfits := hgrew.room
    rw [min_eq_right (by omega), if_pos (by omega), Int.toNat_natCast, List.take_length]
    refine ⟨by omega, rfl, wrote_of_grew hs hgrew ?_⟩
    refine store_spec hgrew.sound hne hfits ?_
    rw [hgrew.next]
    exact hsmall
  · have hreserve : s.reserve data.length = s := if_neg hgrow
    have haccepted : s.accepted data = min s.room data.length := by
      unfold accepted
      split
      · next hd =>
        have hfits : ¬ s.room < data.length := fun hlt => hgrow ⟨hlt, hd⟩
        omega
      · rfl
    rw [hreserve, ← haccepted]
    split
    · next hsome =>
      right
      refine ⟨hsome, rfl, ?_⟩
      have hlength : ((data.take (s.accepted data).toNat).length : Int) = s.accepted data := by
        rw [List.length_take]
        omega
      refine store_spec hs ?_ ?_ ?_
      · intro hnil
        rw [hnil, List.length_nil] at hlength
        omega
      · omega
      · have hsmall := hsmall hsome
        omega
    · exact .inl ⟨by omega, rfl⟩

/-! ### Moves -/

theorem MovesRead.refl (G : Prop) (s : ByteStreamBuf) : MovesRead G s s :=
  ⟨s.memory, s.getArea.next, rfl, fun _ hi => ⟨hi.next_nonneg, hi.next_le⟩, rfl⟩

theorem putSound_of_movesRead {G : Prop} (hs : s.PutSound) (h : MovesRead G s s') :
    s'.PutSound := by
  obtain ⟨memory, next, hlength, -, rfl⟩ := h
  exact ⟨hs.getFirst, hs.putFirst, hs.next_nonneg, hs.next_le, hs.getLast_nonneg, hs.getLast_le,
    by rw [hlength]; exact hs.length, hs.read, hs.write⟩

theorem putArea_of_movesRead {G : Prop} (h : MovesRead G s s') : s'.putArea = s.putArea := by
  obtain ⟨memory, next, -, -, rfl⟩ := h
  rfl

theorem inv_of_movesRead {G : Prop} (hi : s.Inv) (hg : G) (h : MovesRead G s s') : s'.Inv := by
  have hput := putSound_of_movesRead hi.put h
  obtain ⟨memory, next, -, hwithin, rfl⟩ := h
  obtain ⟨hnonneg, hle⟩ := hwithin hg hi
  exact ⟨hput, hnonneg, hle, hi.written, hi.written_le⟩

theorem putSound_of_movesPut (hs : s.PutSound) (h : MovesPut s s') : s'.PutSound := by
  obtain ⟨next, hnonneg, hle, rfl⟩ := h
  exact ⟨hs.getFirst, hs.putFirst, hnonneg, hle, hs.getLast_nonneg, hs.getLast_le, hs.length,
    hs.read, hs.write⟩

theorem inv_of_movesPut (hi : s.Inv) (h : MovesPut s s') : s'.Inv := by
  have hput := putSound_of_movesPut hi.put h
  obtain ⟨next, -, -, rfl⟩ := h
  exact ⟨hput, hi.next_nonneg, hi.next_le, hi.written, hi.written_le⟩

/-! ### Reads and putbacks -/

theorem showmanyc_eq (hi : s.Inv) : s.showmanyc = s.getArea.last - s.getArea.next := by
  unfold showmanyc
  rw [if_pos hi.put.read]
  split
  · rfl
  · next heq =>
    rw [if_pos hi.put.write]
    omega

theorem xsgetn_moves (s : ByteStreamBuf) (n : Int) : MovesRead (0 ≤ n) s (s.xsgetn n).2 := by
  unfold xsgetn
  split
  · refine ⟨s.memory, s.getArea.next + min s.showmanyc n, rfl, ?_, rfl⟩
    intro hn hi
    have hmany := showmanyc_eq hi
    have hnonneg := hi.next_nonneg
    have hle := hi.next_le
    omega
  · exact MovesRead.refl _ s

theorem sbumpc_moves (s : ByteStreamBuf) : MovesRead True s s.sbumpc.2 := by
  unfold sbumpc uflow
  split
  · next hlt =>
    refine ⟨s.memory, s.getArea.next + 1, rfl, ?_, rfl⟩
    intro _ hi
    have hnonneg := hi.next_nonneg
    omega
  · next hge =>
    split
    · next hne =>
      refine ⟨s.memory, s.getArea.next + 1, rfl, ?_, rfl⟩
      intro _ hi
      have hle := hi.next_le
      simp only [ne_eq, decide_not, Bool.and_eq_true, Bool.not_eq_true', decide_eq_false_iff_not]
        at hne
      omega
    · exact MovesRead.refl _ s

theorem back_within (h : s.getArea.first < s.getArea.next) (hi : s.Inv) :
    0 ≤ s.getArea.next - 1 ∧ s.getArea.next - 1 ≤ s.getArea.last := by
  have hfirst := hi.put.getFirst
  have hle := hi.next_le
  omega

theorem length_setByte (s : ByteStreamBuf) (offset : Int) (c : UInt8) :
    ((s.setByte offset c).memory.getD []).length = (s.memory.getD []).length := by
  unfold setByte
  cases s.memory with
  | none => rfl
  | some m => exact List.length_set

theorem pbackfail_moves (s : ByteStreamBuf) (c : Option UInt8) :
    MovesRead True s (s.pbackfail c).2 := by
  unfold pbackfail
  dsimp only
  split
  · next hback =>
    rw [Bool.and_eq_true, decide_eq_true_eq] at hback
    split
    · exact ⟨_, s.getArea.next - 1, length_setByte s _ _, fun _ => back_within hback.2, rfl⟩
    · split
      · exact MovesRead.refl _ s
      · exact ⟨s.memory, s.getArea.next - 1, rfl, fun _ => back_within hback.2, rfl⟩
  · exact MovesRead.refl _ s

theorem sungetc_moves (s : ByteStreamBuf) : MovesRead True s s.sungetc.2 := by
  unfold sungetc
  dsimp only
  split
  · next hback => exact ⟨s.memory, s.getArea.next - 1, rfl, fun _ => back_within hback, rfl⟩
  · exact pbackfail_moves s none

theorem sputbackc_moves (s : ByteStreamBuf) (c : UInt8) :
    MovesRead True s (s.sputbackc c).2 := by
  unfold sputbackc
  dsimp only
  split
  · next hback =>
    rw [Bool.and_eq_true, decide_eq_true_eq] at hback
    exact ⟨s.memory, s.getArea.next - 1, rfl, fun _ => back_within hback.1, rfl⟩
  · exact pbackfail_moves s (some c)

/-! ### Seeks -/

theorem setgIfValid_moves {next : Int} (h : s.setgIfValid s.getArea.first next s.getArea.last =
    some s') : MovesRead True s s' := by
  unfold setgIfValid at h
  split at h
  · next hvalid =>
    cases h
    refine ⟨s.memory, next, rfl, ?_, rfl⟩
    intro _ hi
    have hfirst := hi.put.getFirst
    omega
  · cases h

theorem setpIfValid_moves (hs : s.PutSound) {next : Int} (hsmall : s.SeeksInt next)
    (h : s.setpIfValid s.putArea.first next s.putArea.last = some s') : MovesPut s s' := by
  have hfirst := hs.putFirst
  unfold setpIfValid at h
  split at h
  · next hvalid =>
    cases h
    refine ⟨next, by omega, hvalid.2, ?_⟩
    have hbump : toInt next = next := toInt_of_lt (by omega) (hsmall hvalid.2)
    simp [setp, pbump, hbump, hfirst]
  · cases h

theorem seekGet_moves {off : Int} {way : SeekDir} (h : s.seekGet off way = some s') :
    MovesRead True s s' := by
  unfold seekGet at h
  dsimp only at h
  split at h
  · cases h
  · split at h
    · cases h
    · exact setgIfValid_moves h

theorem seekPut_moves (hs : s.PutSound) {off : Int} {way : SeekDir}
    (hsmall : s.SeeksInt (seekOrigin s.putArea way + off)) (h : s.seekPut off way = some s') :
    MovesPut s s' := by
  unfold seekPut at h
  dsimp only at h
  split at h
  · cases h
  · split at h
    · cases h
    · refine setpIfValid_moves hs ?_ h
      rw [hs.putFirst, zero_add]
      exact hsmall

theorem seekposGet_moves {pos : Int} (h : s.seekposGet pos = some s') : MovesRead True s s' := by
  unfold seekposGet at h
  split at h
  · cases h
  · exact setgIfValid_moves h

theorem seekposPut_moves (hs : s.PutSound) {pos : Int} (hsmall : s.SeeksInt pos)
    (h : s.seekposPut pos = some s') : MovesPut s s' := by
  unfold seekposPut at h
  split at h
  · cases h
  · refine setpIfValid_moves hs ?_ h
    rw [hs.putFirst, zero_add]
    exact hsmall

/-- The part of a seek about the get area, when it does not fail. -/
theorem seekRead_moves (hs : s.PutSound) {inn : Bool} {get : Option ByteStreamBuf}
    (hget : ∀ {t : ByteStreamBuf}, get = some t → MovesRead True s t)
    (h : (if s.read && inn then get else some s) = some s') :
    MovesRead True s s' ∧ s'.putArea = s.putArea ∧ (inn = true → get ≠ none) := by
  split at h
  · have hmoves := hget h
    refine ⟨hmoves, putArea_of_movesRead hmoves, fun _ => ?_⟩
    rw [h]
    nofun
  · next hinn =>
    cases h
    refine ⟨MovesRead.refl _ s, rfl, fun hread => ?_⟩
    exact absurd (Bool.and_eq_true_iff.mpr ⟨hs.read, hread⟩) hinn

/-- A seek moves the read position or leaves it, and then it may move the put position. -/
theorem seekoff_moves (hs : s.PutSound) {off : Int} {way : SeekDir} {inn out : Bool}
    (hg : s.PutsInt (.seekoff off way inn out)) :
    ∃ s₁, MovesRead True s s₁ ∧
      ((s.seekoff off way inn out).2 = s₁ ∨ MovesPut s₁ (s.seekoff off way inn out).2) := by
  unfold seekoff
  split
  · exact ⟨s, MovesRead.refl _ s, .inl rfl⟩
  · next hcur =>
    split
    · exact ⟨s, MovesRead.refl _ s, .inl rfl⟩
    · next s₁ hget =>
      obtain ⟨hread, hput, hfound⟩ := seekRead_moves hs seekGet_moves hget
      refine ⟨s₁, hread, ?_⟩
      split
      · exact .inl rfl
      · next s₂ hmove =>
        split at hmove
        · next hout =>
          rw [Bool.and_eq_true] at hout
          have hsmall := hg hout.2 (fun h => hcur (by simp [h.1, h.2, hout.2])) hfound
          refine .inr (seekPut_moves (putSound_of_movesRead hs hread) ?_ hmove)
          unfold SeeksInt
          rw [hput]
          exact hsmall
        · cases hmove
          exact .inl rfl

theorem seekpos_moves (hs : s.PutSound) {pos : Int} {inn out : Bool}
    (hg : s.PutsInt (.seekpos pos inn out)) :
    ∃ s₁, MovesRead True s s₁ ∧
      ((s.seekpos pos inn out).2 = s₁ ∨ MovesPut s₁ (s.seekpos pos inn out).2) := by
  unfold seekpos
  split
  · exact ⟨s, MovesRead.refl _ s, .inl rfl⟩
  · next s₁ hget =>
    obtain ⟨hread, hput, hfound⟩ := seekRead_moves hs seekposGet_moves hget
    refine ⟨s₁, hread, ?_⟩
    split
    · exact .inl rfl
    · next s₂ hmove =>
      split at hmove
      · next hout =>
        rw [Bool.and_eq_true] at hout
        refine .inr (seekposPut_moves (putSound_of_movesRead hs hread) ?_ hmove)
        unfold SeeksInt
        rw [hput]
        exact hg hout.2 hfound
      · cases hmove
        exact .inl rfl

/-! ### Single bytes -/

/-- At the end of the put area nothing is written, and the end of the get area moves there. -/
theorem sputc_of_full (hs : s.PutSound) (hfull : s.putArea.next = s.putArea.last) (c : UInt8) :
    s.sputc c = (false, { s with
      getArea := ⟨s.getArea.first, s.getArea.next, s.putArea.next⟩ }) := by
  unfold sputc overflow
  rw [if_neg (by omega), if_pos hs.write]
  simp [hfull, updateReadAfterWrite, setg, hs.read, hs.write]

theorem putSound_sputc (hs : s.PutSound) (c : UInt8) : (s.sputc c).2.PutSound := by
  have hnonneg := hs.next_nonneg
  by_cases hfits : s.putArea.next < s.putArea.last
  · unfold sputc
    rw [if_pos hfits]
    refine ⟨hs.getFirst, hs.putFirst, ?_, hfits, hs.getLast_nonneg, hs.getLast_le, ?_, hs.read,
      hs.write⟩
    · exact Int.add_nonneg hnonneg (by decide)
    · exact (congrArg Int.ofNat (length_setByte s s.putArea.next c)).trans hs.length
  · have hle := hs.next_le
    rw [sputc_of_full hs (by omega)]
    exact ⟨hs.getFirst, hs.putFirst, hnonneg, hle, hnonneg, hle, hs.length, hs.read, hs.write⟩

theorem inv_sputc (hi : s.Inv) (hfits : s.putArea.next < s.putArea.last) (c : UInt8) :
    (s.sputc c).2.Inv := by
  have hput := putSound_sputc hi.put c
  have hwritten := hi.written
  have hle := hi.written_le
  unfold sputc at hput ⊢
  rw [if_pos hfits] at hput ⊢
  exact ⟨hput, hi.next_nonneg, hi.next_le, Int.le_trans hwritten (Int.le_max_left ..),
    Int.max_le.mpr ⟨hle, hfits⟩⟩

/-! ### Steps -/

theorem inv_setbuf (data : List UInt8) : (setbuf data).Inv :=
  ⟨⟨rfl, rfl, Int.le_refl _, Int.natCast_nonneg _, Int.natCast_nonneg _, Int.le_refl _, rfl, rfl,
    rfl⟩, Int.le_refl _, Int.natCast_nonneg _, Int.le_refl _, Int.le_refl _⟩

theorem putSound_setDynamic (hs : s.PutSound) (dyn : Bool) : (s.setDynamic dyn).PutSound :=
  ⟨hs.getFirst, hs.putFirst, hs.next_nonneg, hs.next_le, hs.getLast_nonneg, hs.getLast_le,
    hs.length, hs.read, hs.write⟩

theorem inv_setDynamic (hi : s.Inv) (dyn : Bool) : (s.setDynamic dyn).Inv :=
  ⟨putSound_setDynamic hi.put dyn, hi.next_nonneg, hi.next_le, hi.written, hi.written_le⟩

theorem inv_create (data : List UInt8) (isDynamic : Bool) : (create data isDynamic).Inv := by
  unfold create
  refine inv_setDynamic ?_ isDynamic
  split
  · exact ⟨⟨rfl, rfl, Int.le_refl _, Int.le_refl _, Int.le_refl _, Int.le_refl _, rfl, rfl, rfl⟩,
      Int.le_refl _, Int.le_refl _, Int.le_refl _, Int.le_refl _⟩
  · exact inv_setbuf data

/-- The put area stays in order whatever is read. -/
theorem putSound_step {a : Action} (hs : s.PutSound) (hg : s.PutsInt a)
    (h : step s a = some s') : s'.PutSound := by
  cases a <;> cases h
  case sgetn n => exact putSound_of_movesRead hs (xsgetn_moves s n)
  case sgetc => exact hs
  case sbumpc => exact putSound_of_movesRead hs (sbumpc_moves s)
  case sputn data =>
    rcases xsputn_spec hs data hg with ⟨-, hnone⟩ | ⟨-, -, hwrote⟩
    · rw [hnone]
      exact hs
    · exact hwrote.sound
  case sputc c => exact putSound_sputc hs c
  case seekoff off way inn out =>
    obtain ⟨s₁, hread, hsame | hput⟩ := seekoff_moves hs hg
    · rw [hsame]
      exact putSound_of_movesRead hs hread
    · exact putSound_of_movesPut (putSound_of_movesRead hs hread) hput
  case seekpos pos inn out =>
    obtain ⟨s₁, hread, hsame | hput⟩ := seekpos_moves hs hg
    · rw [hsame]
      exact putSound_of_movesRead hs hread
    · exact putSound_of_movesPut (putSound_of_movesRead hs hread) hput
  case sputbackc c => exact putSound_of_movesRead hs (sputbackc_moves s c)
  case sungetc => exact putSound_of_movesRead hs (sungetc_moves s)
  case dynamic dyn => exact putSound_setDynamic hs dyn
  case setbuf data => exact (inv_setbuf data).put

theorem inv_of_wrote {data : List UInt8} (hi : s.Inv) (h : Wrote s data s')
    (hbehind : s.getArea.next ≤ s.putArea.next + data.length) : s'.Inv := by
  have hnext := h.next
  have hlast := h.last
  have hnonneg := hi.next_nonneg
  have hputNonneg := hi.put.next_nonneg
  have hwritten := h.written
  have hwrittenLe := hi.written_le
  have hfits := h.sound.next_le
  refine ⟨h.sound, ?_, ?_, ?_, ?_⟩
  · rcases h.getNext with hsame | ⟨-, hzero⟩ <;> omega
  · rw [h.getLast]
    rcases h.getNext with hsame | ⟨-, hzero⟩ <;> omega
  · rw [h.getLast]
    omega
  · omega

theorem inv_step {a : Action} (hi : s.Inv) (hg : s.Meets a) (h : step s a = some s') :
    s'.Inv := by
  obtain ⟨hputs, hmeets⟩ := hg
  cases a <;> cases h
  case sgetn n => exact inv_of_movesRead hi hmeets (xsgetn_moves s n)
  case sgetc => exact hi
  case sbumpc => exact inv_of_movesRead hi trivial (sbumpc_moves s)
  case sputn data =>
    rcases xsputn_spec hi.put data hputs with ⟨-, hnone⟩ | ⟨hpos, -, hwrote⟩
    · rw [hnone]
      exact hi
    · refine inv_of_wrote hi hwrote ?_
      have hbehind := hmeets hpos
      have haccepted : s.accepted data ≤ data.length := by
        unfold accepted
        split <;> omega
      rw [List.length_take]
      omega
  case sputc c => exact inv_sputc hi hmeets c
  case seekoff off way inn out =>
    obtain ⟨s₁, hread, hsame | hput⟩ := seekoff_moves hi.put hputs
    · rw [hsame]
      exact inv_of_movesRead hi trivial hread
    · exact inv_of_movesPut (inv_of_movesRead hi trivial hread) hput
  case seekpos pos inn out =>
    obtain ⟨s₁, hread, hsame | hput⟩ := seekpos_moves hi.put hputs
    · rw [hsame]
      exact inv_of_movesRead hi trivial hread
    · exact inv_of_movesPut (inv_of_movesRead hi trivial hread) hput
  case sputbackc c => exact inv_of_movesRead hi trivial (sputbackc_moves s c)
  case sungetc => exact inv_of_movesRead hi trivial (sungetc_moves s)
  case dynamic dyn => exact inv_setDynamic hi dyn
  case setbuf data => exact inv_setbuf data

/-! ### What is read -/

theorem byteAt_eq (hi : s.Inv) (hlt : s.getArea.next < s.getArea.last) :
    s.byteAt s.getArea.next = s.content[s.getArea.next.toNat]? := by
  have hnonneg := hi.next_nonneg
  unfold byteAt content
  rw [if_neg (by omega), List.getElem?_take_of_lt (by omega)]
  cases s.memory <;> rfl

theorem content_end (hend : s.getArea.next = s.getArea.last) :
    s.content[s.getArea.next.toNat]? = none := by
  rw [hend]
  refine List.getElem?_eq_none ?_
  unfold content
  rw [List.length_take]
  omega

theorem readsContent_of_inv (hi : s.Inv) : s.ReadsContent := by
  have hmany := showmanyc_eq hi
  have hnonneg := hi.next_nonneg
  have hle := hi.next_le
  have hlast := hi.put.getLast_le
  have hlength := hi.put.length
  refine ⟨by omega, ?_, hi.written, ?_, ?_, ?_⟩
  · unfold inAvail
    split <;> omega
  · intro n hn
    unfold xsgetn copy content
    rw [if_pos hi.put.read, hmany, List.drop_take, List.take_take]
    dsimp only
    congr 1
    omega
  · unfold sgetc underflow
    split
    · next hlt => exact byteAt_eq hi hlt
    · next hge =>
      have hend : s.getArea.next = s.getArea.last := by omega
      rw [content_end hend]
      simp [hend]
  · unfold sbumpc uflow
    split
    · next hlt => exact byteAt_eq hi hlt
    · next hge =>
      have hend : s.getArea.next = s.getArea.last := by omega
      rw [content_end hend]
      simp [hend]

end PointersLemmas

open PointersLemmas

/-! ## Runs -/

/-- In every run whose steps meet the condition, the pointers of both areas are in order and no
read goes beyond the content. -/
theorem pointers_ordered {data : List UInt8} {isDynamic : Bool} {s : ByteStreamBuf}
    (h : Lts.Reachable step Meets (create data isDynamic) s) : s.Ordered ∧ s.ReadsContent := by
  have hi : s.Inv := h.invariant (inv_create data isDynamic) fun _ _ _ hi hg hs => inv_step hi hg hs
  refine ⟨⟨?_, hi.next_le, ?_, hi.put.next_le⟩, readsContent_of_inv hi⟩
  · rw [hi.put.getFirst]
    exact hi.next_nonneg
  · rw [hi.put.putFirst]
    exact hi.put.next_nonneg

theorem pointers_ordered_after_writes :
    ∃ s, Lts.Reachable step Meets (create [] true) s ∧ s.Ordered ∧ s.ReadsContent := by
  obtain ⟨s, hs, -⟩ := Lts.Reachable.of_exec step Meets (create [] true)
    [.sputn [1, 2], .sgetn 1, .seekoff 0 .beg false true, .sputn [3], .sungetc] (fun _ => true)
    (by decide +kernel)
  exact ⟨s, hs, pointers_ordered hs⟩

/-- Two bytes are written and read, and one byte is written over the first of them: the content
ends before the read position. -/
theorem write_before_read_position :
    ∃ s, Lts.Reachable step Lts.anyStep (create [] true) s ∧
      ¬ s.Ordered ∧ ¬ s.ReadsContent := by
  obtain ⟨s, hs, hp⟩ := Lts.Reachable.of_exec step Lts.anyStep (create [] true)
    [.sputn [1, 2], .sgetn 2, .seekoff 0 .beg false true, .sputn [3]]
    (fun s => s.getArea.next = 2 ∧ s.getArea.last = 1 ∧ s.showmanyc = -1) (by decide +kernel)
  simp only [decide_eq_true_eq] at hp
  obtain ⟨hnext, hlast, hmany⟩ := hp
  refine ⟨s, hs, fun hordered => ?_, fun hreads => ?_⟩
  · have hle := hordered.gptr_le_egptr
    omega
  · have hnonneg := hreads.showmanyc
    omega

end Stormancer.Streams.ByteStreamBuf
