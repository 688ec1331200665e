import Stormancer.Streams.Pointers

/-!
# What seeks return

`seekoff` moves the cursors that it is asked to move, first the read position and then the write
position. It returns the position that the offset was added to, not the one that it moved to; and
when the write position cannot be moved, the read position has moved already. `seekpos` returns the
position that it was given.

Results:
1. `run_eq`: both seeks as moves of the two cursors, one after the other.
2. `reports_iff`: a seek returns the position that it moved to, or moves nothing when it fails,
   exactly when it is `Accurate`.
3. `seek_returns_origin`: a seek by one byte returns the position before it.
-/

namespace Stormancer.Streams.ByteStreamBuf

/-! ## Definitions -/

/-- A call of `seekoff` or `seekpos`. -/
inductive Seek
  | seekoff (off : Int) (way : SeekDir) (inn out : Bool)
  | seekpos (pos : Int) (inn out : Bool)
deriving DecidableEq

namespace Seek

def run (s : ByteStreamBuf) : Seek → Int × ByteStreamBuf
  | .seekoff off way inn out => s.seekoff off way inn out
  | .seekpos pos inn out => s.seekpos pos inn out

/-- The seek moves the read position. -/
def get (s : ByteStreamBuf) : Seek → Bool
  | .seekoff _ _ inn _ | .seekpos _ inn _ => s.read && inn

/-- The seek moves the write position. -/
def put (s : ByteStreamBuf) : Seek → Bool
  | .seekoff _ _ _ out | .seekpos _ _ out => s.write && out

/-- Both cursors cannot be moved relative to where they are. -/
def refused : Seek → Bool
  | .seekoff _ way inn out => inn && out && way = .cur
  | .seekpos .. => false

/-- Where a cursor should go in its area. -/
def target (a : Area) : Seek → Int
  | .seekoff off way _ _ => seekOrigin a way + off
  | .seekpos pos _ _ => pos

/-- The position that the seek starts from: the one that the offset is added to, or the absolute
position itself. -/
def origin (a : Area) : Seek → Int
  | .seekoff _ way _ _ => seekOrigin a way
  | .seekpos pos _ _ => pos

end Seek

/-- An offset that a cursor of the area can be moved to. -/
def Within (s : ByteStreamBuf) (a : Area) (x : Int) : Prop :=
  s.isAllocated = true ∧ 0 ≤ x ∧ x ≤ a.last - a.first

instance (s : ByteStreamBuf) (a : Area) (x : Int) : Decidable (s.Within a x) :=
  inferInstanceAs (Decidable (_ ∧ _))

/-! ## The property -/

/-- A seek that succeeds returns the position of each cursor that it moves, and one that fails moves
none. -/
structure Reports (s : ByteStreamBuf) (k : Seek) : Prop where
  get : (k.run s).1 ≠ -1 → k.get s = true →
    (k.run s).2.getArea.next - (k.run s).2.getArea.first = (k.run s).1
  put : (k.run s).1 ≠ -1 → k.put s = true →
    (k.run s).2.putArea.next - (k.run s).2.putArea.first = (k.run s).1
  getKept : (k.run s).1 = -1 → (k.run s).2.getArea.next = s.getArea.next
  putKept : (k.run s).1 = -1 → (k.run s).2.putArea.next = s.putArea.next

/-! ## The condition -/

/-- Either the seek fails before it has moved a cursor; or the write position cannot be moved and
the read position is at its target already; or the targets of the cursors that are moved are the
position that the seek starts from, that of the write position if it is moved. The write position
is kept as an `int`. -/
def Accurate (s : ByteStreamBuf) (k : Seek) : Prop :=
  if k.refused then True
  else if k.get s = true ∧ ¬ s.Within s.getArea (k.target s.getArea) then True
  else if k.put s = true ∧ ¬ s.Within s.putArea (k.target s.putArea) then
    k.get s = true → k.target s.getArea = s.getArea.next - s.getArea.first
  else
    (k.put s = true → toInt (k.target s.putArea) = k.origin s.putArea) ∧
      (k.get s = true →
        k.target s.getArea = k.origin (if k.put s then s.putArea else s.getArea))

/-! ## Helpers -/

namespace SeeksLemmas

variable {s : ByteStreamBuf} {off pos : Int} {way : SeekDir} {inn out : Bool} {k : Seek}

/-- The read position is moved. -/
def moveGet (s : ByteStreamBuf) (x : Int) : ByteStreamBuf :=
  s.setg s.getArea.first (s.getArea.first + x) s.getArea.last

/-- The write position is moved. -/
def movePut (s : ByteStreamBuf) (x : Int) : ByteStreamBuf :=
  (s.setp s.putArea.first s.putArea.last).pbump (toInt x)

/-- The moves of a seek, with what it returns when they are carried out. -/
def carryOut (s : ByteStreamBuf) (k : Seek) (result : Int) : Int × ByteStreamBuf :=
  let x := k.target s.getArea
  let y := k.target s.putArea
  if k.get s = true ∧ ¬ s.Within s.getArea x then (-1, s)
  else
    let s₁ := if k.get s then moveGet s x else s
    if k.put s = true ∧ ¬ s.Within s.putArea y then (-1, s₁)
    else (result, if k.put s then movePut s₁ y else s₁)

theorem seekGet_eq (s : ByteStreamBuf) (off : Int) (way : SeekDir) : s.seekGet off way =
    if s.Within s.getArea (seekOrigin s.getArea way + off) then
      some (moveGet s (seekOrigin s.getArea way + off))
    else none := by
  unfold seekGet setgIfValid Within moveGet
  dsimp only
  grind

theorem seekPut_eq (s : ByteStreamBuf) (off : Int) (way : SeekDir) : s.seekPut off way =
    if s.Within s.putArea (seekOrigin s.putArea way + off) then
      some (movePut s (seekOrigin s.putArea way + off))
    else none := by
  unfold seekPut setpIfValid Within movePut
  dsimp only
  rw [add_sub_cancel_left]
  grind

theorem seekposGet_eq (s : ByteStreamBuf) (pos : Int) : s.seekposGet pos =
    if s.Within s.getArea pos then some (moveGet s pos) else none := by
  unfold seekposGet setgIfValid Within moveGet
  grind

theorem seekposPut_eq (s : ByteStreamBuf) (pos : Int) : s.seekposPut pos =
    if s.Within s.putArea pos then some (movePut s pos) else none := by
  unfold seekposPut setpIfValid Within movePut
  rw [add_sub_cancel_left]
  grind

/-- One part of a seek, with whether it is asked for. -/
theorem part_eq (asked : Bool) {W : Prop} [Decidable W] (moved s : ByteStreamBuf) :
    (if asked then if W then some moved else none else some s) =
      if asked = true ∧ ¬ W then none else some (if asked then moved else s) := by
  cases asked <;> grind

/-- The two parts of a seek, one after the other. -/
def inTurn (s : ByteStreamBuf) (get : Option ByteStreamBuf)
    (put : ByteStreamBuf → Option ByteStreamBuf) (result : Int) : Int × ByteStreamBuf :=
  match get with
  | none => (-1, s)
  | some s₁ =>
    match put s₁ with
    | none => (-1, s₁)
    | some s₂ => (result, s₂)

theorem inTurn_eq (s : ByteStreamBuf) (k : Seek) (result : Int) (get : Option ByteStreamBuf)
    (put : ByteStreamBuf → Option ByteStreamBuf)
    (hget : get = if k.get s then
      if s.Within s.getArea (k.target s.getArea) then some (moveGet s (k.target s.getArea))
      else none else some s)
    (hput : ∀ t, put t = if k.put s then
      if t.Within t.putArea (k.target t.putArea) then some (movePut t (k.target t.putArea))
      else none else some t) :
    inTurn s get put result = carryOut s k result := by
  have hputArea : ∀ x, (if k.get s then moveGet s x else s).putArea = s.putArea := by
    intro x
    cases k.get s <;> rfl
  have hwithin : ∀ x a y, (if k.get s then moveGet s x else s).Within a y ↔ s.Within a y := by
    intro x a y
    cases k.get s <;> rfl
  rw [part_eq] at hget
  simp only [part_eq] at hput
  unfold carryOut inTurn
  dsimp only
  by_cases hfails : k.get s = true ∧ ¬ s.Within s.getArea (k.target s.getArea)
  · rw [hget, if_pos hfails, if_pos hfails]
  · rw [hget, if_neg hfails, if_neg hfails]
    dsimp only
    simp only [hput, hputArea, hwithin]
    by_cases hfails' : k.put s = true ∧ ¬ s.Within s.putArea (k.target s.putArea)
    · rw [if_pos hfails', if_pos hfails']
    · rw [if_neg hfails', if_neg hfails']

/-- What a seek that is not refused returns when both parts are carried out. -/
def result (s : ByteStreamBuf) (k : Seek) : Int :=
  k.origin (if k.put s then s.putArea else if k.get s then s.getArea else ⟨0, 0, 0⟩)

theorem result_seekoff (s : ByteStreamBuf) (off : Int) (way : SeekDir) (inn out : Bool) :
    result s (.seekoff off way inn out) =
      if s.write && out then seekOrigin s.putArea way
      else if s.read && inn then seekOrigin s.getArea way
      else 0 := by
  change seekOrigin (if s.write && out then _ else if s.read && inn then _ else _) way = _
  cases s.write && out with
  | true => rfl
  | false =>
    cases s.read && inn with
    | true => rfl
    | false => cases way <;> rfl

theorem run_eq (s : ByteStreamBuf) (k : Seek) :
    k.run s = if k.refused then (-1, s) else carryOut s k (result s k) := by
  cases k with
  | seekoff off way inn out =>
    have hturn := inTurn_eq s (.seekoff off way inn out) (result s (.seekoff off way inn out))
      (if s.read && inn then s.seekGet off way else some s)
      (fun t => if s.write && out then t.seekPut off way else some t)
      (by rw [seekGet_eq]; rfl) (fun t => by rw [seekPut_eq]; rfl)
    rw [← hturn, result_seekoff]
    rfl
  | seekpos pos inn out =>
    have hturn := inTurn_eq s (.seekpos pos inn out) pos
      (if s.read && inn then s.seekposGet pos else some s)
      (fun t => if s.write && out then t.seekposPut pos else some t)
      (by rw [seekposGet_eq]; rfl) (fun t => by rw [seekposPut_eq]; rfl)
    exact hturn

/-- A seek that fails with the buffer `t` left. -/
theorem reports_failed_iff {t : ByteStreamBuf} (hrun : k.run s = (-1, t)) :
    s.Reports k ↔ t.getArea.next = s.getArea.next ∧ t.putArea.next = s.putArea.next := by
  constructor
  · intro h
    have hget := h.getKept
    have hput := h.putKept
    rw [hrun] at hget hput
    exact ⟨hget rfl, hput rfl⟩
  · rintro ⟨hget, hput⟩
    constructor <;> rw [hrun] <;> intro hr
    · exact absurd rfl hr
    · exact absurd rfl hr
    · exact hget
    · exact hput

theorem moved_getArea (s : ByteStreamBuf) (k : Seek) (x : Int) :
    (if k.get s then moveGet s x else s).getArea =
      { s.getArea with next := if k.get s then s.getArea.first + x else s.getArea.next } := by
  cases k.get s <;> rfl

theorem carried_getArea (s₁ : ByteStreamBuf) (asked : Bool) (y : Int) :
    (if asked then movePut s₁ y else s₁).getArea = s₁.getArea := by
  cases asked <;> rfl

theorem carried_putArea (s : ByteStreamBuf) (k : Seek) (x y : Int) :
    (if k.put s then movePut (if k.get s then moveGet s x else s) y
      else if k.get s then moveGet s x else s).putArea =
      { s.putArea with next := if k.put s then s.putArea.first + toInt y else s.putArea.next } := by
  cases k.put s <;> cases k.get s <;> rfl

/-- A seek that is carried out. When it returns -1 nonetheless, each cursor that it moves was at
that position. -/
theorem reports_done_iff {r x y : Int}
    (hrun : k.run s = (r, if k.put s then movePut (if k.get s then moveGet s x else s) y
      else if k.get s then moveGet s x else s))
    (hget : r = -1 → k.get s = true → s.getArea.next - s.getArea.first = -1)
    (hput : r = -1 → k.put s = true → s.putArea.next - s.putArea.first = -1) :
    s.Reports k ↔ (k.put s = true → toInt y = r) ∧ (k.get s = true → x = r) := by
  have hfst : (k.run s).1 = r := by rw [hrun]
  have hgetArea := congrArg (·.2.getArea) hrun
  have hputArea := congrArg (·.2.putArea) hrun
  simp only [carried_getArea, moved_getArea, carried_putArea] at hgetArea hputArea
  constructor
  · rintro ⟨hg, hp, hgk, hpk⟩
    rw [hfst, hgetArea] at hg hgk
    rw [hfst, hputArea] at hp hpk
    grind
  · rintro ⟨hy, hx⟩
    constructor <;> rw [hfst] <;> intro hr
    · intro hg
      simp [hgetArea, hg, hx hg]
    · intro hp
      simp [hputArea, hp, hy hp]
    · rw [hgetArea]
      grind
    · rw [hputArea]
      grind

/-- What is returned is for a cursor that is moved. -/
theorem result_eq (s : ByteStreamBuf) (k : Seek) (h : k.get s = true ∨ k.put s = true) :
    result s k = k.origin (if k.put s then s.putArea else s.getArea) := by
  unfold result
  by_cases hp : k.put s = true
  · rw [if_pos hp, if_pos hp]
  · rw [if_neg hp, if_neg hp, if_pos (h.resolve_right hp)]

/-- Only a seek relative to the cursor can return -1 after a move. -/
theorem relative_of_neg {a : Area} (hr : k.origin a = -1)
    (hwithin : s.Within a (k.target a)) : ∃ off inn out, k = .seekoff off .cur inn out := by
  obtain ⟨-, hnonneg, hle⟩ := hwithin
  cases k with
  | seekpos pos inn out =>
    change pos = -1 at hr
    change 0 ≤ pos at hnonneg
    omega
  | seekoff off way inn out =>
    cases way with
    | beg => exact absurd hr (by simp [Seek.origin, seekOrigin])
    | cur => exact ⟨off, inn, out, rfl⟩
    | end_ =>
      change a.last - a.first = -1 at hr
      omega

/-- In that case each cursor that is moved was at -1. -/
theorem origins_of_neg (hrefused : ¬ k.refused = true)
    (hget : k.get s = true → s.Within s.getArea (k.target s.getArea))
    (hput : k.put s = true → s.Within s.putArea (k.target s.putArea)) (hr : result s k = -1) :
    (k.get s = true → s.getArea.next - s.getArea.first = -1) ∧
      (k.put s = true → s.putArea.next - s.putArea.first = -1) := by
  have hasked : k.get s = true ∨ k.put s = true →
      ∃ off inn out, k = .seekoff off .cur inn out := by
    intro h
    rw [result_eq s k h] at hr
    cases hp : k.put s with
    | true =>
      rw [if_pos hp] at hr
      exact relative_of_neg hr (hput hp)
    | false =>
      rw [if_neg (by simp [hp])] at hr
      exact relative_of_neg hr (hget (by simpa [hp] using h))
  by_cases h : k.get s = true ∨ k.put s = true
  · obtain ⟨off, inn, out, rfl⟩ := hasked h
    rw [result_eq s _ h] at hr
    simp only [Seek.get, Seek.put, Seek.refused, Seek.origin, seekOrigin] at *
    grind
  · simp_all

end SeeksLemmas

open SeeksLemmas

/-! ## Results -/

/-- For every state of the buffer and every seek. -/
theorem reports_iff (s : ByteStreamBuf) (k : Seek) : s.Reports k ↔ s.Accurate k := by
  have hrun := run_eq s k
  unfold Accurate
  by_cases hrefused : k.refused = true
  · rw [if_pos hrefused] at hrun ⊢
    simp [reports_failed_iff hrun]
  rw [if_neg hrefused] at hrun ⊢
  unfold carryOut at hrun
  dsimp only at hrun
  by_cases hget : k.get s = true ∧ ¬ s.Within s.getArea (k.target s.getArea)
  · rw [if_pos hget] at hrun ⊢
    simp [reports_failed_iff hrun]
  rw [if_neg hget] at hrun ⊢
  by_cases hput : k.put s = true ∧ ¬ s.Within s.putArea (k.target s.putArea)
  · rw [if_pos hput] at hrun ⊢
    rw [reports_failed_iff hrun, moved_getArea]
    -- the read position has been moved when the put part fails
    have hkept : (if k.get s then moveGet s (k.target s.getArea) else s).putArea = s.putArea := by
      cases k.get s <;> rfl
    cases hg : k.get s with
    | true => simp only [hg, if_true] at hkept ⊢; simp [hkept, eq_sub_iff_add_eq']
    | false => simp
  · rw [if_neg hput] at hrun ⊢
    have horigins := origins_of_neg hrefused (by simpa using hget) (by simpa using hput)
    rw [reports_done_iff hrun (fun hr => (horigins hr).1) fun hr => (horigins hr).2]
    by_cases hasked : k.get s = true ∨ k.put s = true
    · rw [result_eq s k hasked]
      refine and_congr_left' ⟨fun h hp => ?_, fun h hp => ?_⟩ <;> simpa [hp] using h hp
    · simp_all

/-- A seek by one byte from the first of three bytes returns 0 and leaves the read position at 1. -/
theorem seek_returns_origin : ¬ ∀ (s : ByteStreamBuf) (k : Seek), s.Reports k := by
  intro h
  have hget := (h (create [1, 2, 3] false) (.seekoff 1 .cur true false)).get
  exact absurd (hget (by decide) rfl) (by decide)

end Stormancer.Streams.ByteStreamBuf
