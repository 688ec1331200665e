import Mathlib.Data.List.Nodup
import Stormancer.Lib.MsgpackObject

/-!
# Values as objects of MessagePack

A codec packs the values of a type and converts objects to them. A conversion goes into a variable
that holds a value already, of which a record keeps the members that the object does not have. A
record is an array of its members in order, or a map from their names.

A map of values is the list of its entries, in the order of its iteration.

Results:
1. `carries_unsigned`, `carries_signed`, `carries_string`, `carries_vector`, `carries_unorderedMap`
   and the like: a value is converted from its own object, whatever the variable holds.
2. `carries_defineArray`, `carries_defineMap`: so is a record whose members are.
3. `convert_defineMap`: a record from a map in any order, with other keys and with missing ones.
-/

namespace Msgpack

/-! ## Definitions -/

structure Codec (α : Type) where
  pack : α → List UInt8
  /-- The conversion of an object, into a variable that holds a value. -/
  convert : α → Object → Except Error α

/-- The value is packed as the object, and converted back from it. -/
structure Codec.Carries {α : Type} (c : Codec α) (value : α) (o : Object) : Prop where
  encodes : Encodes (c.pack value) o
  convert : ∀ held, c.convert held o = .ok value

/-- An unsigned integer of `w` bytes. -/
def unsignedCodec (w : Nat) : Codec Nat where
  pack := packUInt
  convert _
    | .positiveInteger n => if n < 256 ^ w then .ok n else .error .typeError
    | _ => .error .typeError

/-- A signed integer of `w` bytes. -/
def signedCodec (w : Nat) : Codec Int where
  pack := packInt
  convert _
    | .positiveInteger n => if 2 * n < 256 ^ w then .ok n else .error .typeError
    | .negativeInteger z => if -(256 ^ w : Int) ≤ 2 * z then .ok z else .error .typeError
    | .ext _ => .ok 0
    | _ => .error .typeError

def boolCodec : Codec Bool where
  pack := packBool
  convert _
    | .boolean b => .ok b
    | _ => .error .typeError

def stringCodec : Codec (List UInt8) where
  pack := packStr
  convert _
    | .bin data | .str data => .ok data
    | .nil => .ok []
    | _ => .error .typeError

/-- Bytes that are no text. -/
def binaryCodec : Codec (List UInt8) where
  pack := packBin
  convert _
    | .bin data | .str data => .ok data
    | _ => .error .typeError

/-- The values of a type through those of another one. -/
def Codec.via {α β : Type} (c : Codec β) (f : α → β) (g : β → α) : Codec α where
  pack value := c.pack (f value)
  convert held o := (c.convert (f held) o).map g

/-- The objects, each into the element that the variable holds at its place or else into a fresh
one. -/
def convertItems {α : Type} (c : Codec α) (fresh : α) : List α → List Object → Except Error (List α)
  | _, [] => .ok []
  | held, o :: os =>
    match c.convert (held.headD fresh) o with
    | .error e => .error e
    | .ok x => (convertItems c fresh held.tail os).map (x :: ·)

def vectorCodec {α : Type} (c : Codec α) (fresh : α) : Codec (List α) where
  pack xs := arrayHeader xs.length ++ xs.flatMap c.pack
  convert held
    | .array os => convertItems c fresh held os
    | _ => .error .typeError

section Maps

variable {κ ν : Type} [DecidableEq κ]

/-- `entries[key] = value`. -/
def assign (entries : List (κ × ν)) (key : κ) (value : ν) : List (κ × ν) :=
  if key ∈ entries.map Prod.fst then
    entries.map fun e => if e.1 = key then (key, value) else e
  else entries ++ [(key, value)]

/-- The pairs of objects, one after the other into the entries that there are. -/
def convertPairs (ck : Codec κ) (cv : Codec ν) (freshKey : κ) (fresh : ν) :
    List (κ × ν) → List (Object × Object) → Except Error (List (κ × ν))
  | entries, [] => .ok entries
  | entries, p :: ps =>
    match ck.convert freshKey p.1 with
    | .error e => .error e
    | .ok key =>
      match cv.convert ((entries.lookup key).getD fresh) p.2 with
      | .error e => .error e
      | .ok value => convertPairs ck cv freshKey fresh (assign entries key value) ps

def unorderedMapCodec (ck : Codec κ) (cv : Codec ν) (freshKey : κ) (fresh : ν) :
    Codec (List (κ × ν)) where
  pack entries := mapHeader entries.length ++ entries.flatMap fun e => ck.pack e.1 ++ cv.pack e.2
  convert _
    | .map pairs => convertPairs ck cv freshKey fresh [] pairs
    | _ => .error .typeError

end Maps

/-- A value behind a pointer that may be null. -/
def sharedCodec {α : Type} (c : Codec α) (fresh : α) : Codec (Option α) where
  pack
    | none => packNil
    | some value => c.pack value
  convert _
    | .nil => .ok none
    | o => (c.convert fresh o).map some

/-! ### Records -/

/-- A member of a record. -/
structure Member (ρ : Type) where
  name : List UInt8
  pack : ρ → List UInt8
  convert : ρ → Object → Except Error ρ
  /-- The second record, with the member of the first one. -/
  copy : ρ → ρ → ρ

def Member.of {ρ α : Type} (name : List UInt8) (c : Codec α) (get : ρ → α) (set : ρ → α → ρ) :
    Member ρ where
  name := name
  pack r := c.pack (get r)
  convert held o := (c.convert (get held) o).map (set held)
  copy r held := set held (get r)

/-- The member of the record is packed as the object, and converted back from it. -/
structure Member.Carries {ρ : Type} (f : Member ρ) (r : ρ) (o : Object) : Prop where
  encodes : Encodes (f.pack r) o
  convert : ∀ held, f.convert held o = .ok (f.copy r held)

/-- All members of `r`, copied into a record. -/
def copyAll {ρ : Type} (fs : List (Member ρ)) (r held : ρ) : ρ :=
  fs.foldl (fun held f => f.copy r held) held

/-- The members from the first objects. Members without an object are kept, and objects without a
member are left out. -/
def convertFields {ρ : Type} : List (Member ρ) → List Object → ρ → Except Error ρ
  | f :: fs, o :: os, held =>
    match f.convert held o with
    | .error e => .error e
    | .ok held => convertFields fs os held
  | _, _, held => .ok held

/-- `MSGPACK_DEFINE_ARRAY`. -/
def defineArray {ρ : Type} (fs : List (Member ρ)) : Codec ρ where
  pack r := arrayHeader fs.length ++ fs.flatMap (·.pack r)
  convert held
    | .array os => convertFields fs os held
    | _ => .error .typeError

/-- The text of a key; the library takes every key for a text. -/
def keyText : Object → Except Error (List UInt8)
  | .str data | .bin data => .ok data
  | _ => .error .undefinedKey

/-- The objects by the texts of their keys. -/
def keyed : List (Object × Object) → Except Error (List (List UInt8 × Object))
  | [] => .ok []
  | p :: ps =>
    match keyText p.1 with
    | .error e => .error e
    | .ok key => (keyed ps).map ((key, p.2) :: ·)

/-- The members from the objects with their names, the first one for each name. -/
def convertNamed {ρ : Type} (objects : List (List UInt8 × Object)) :
    List (Member ρ) → ρ → Except Error ρ
  | [], held => .ok held
  | f :: fs, held =>
    match objects.lookup f.name with
    | none => convertNamed objects fs held
    | some o =>
      match f.convert held o with
      | .error e => .error e
      | .ok held => convertNamed objects fs held

/-- `MSGPACK_DEFINE_MAP`. -/
def defineMap {ρ : Type} (fs : List (Member ρ)) : Codec ρ where
  pack r := mapHeader fs.length ++ fs.flatMap fun f => packStr f.name ++ f.pack r
  convert held
    | .map pairs =>
      match keyed pairs with
      | .error e => .error e
      | .ok objects => convertNamed objects fs held
    | _ => .error .typeError

/-! ## Values -/

/-- An object for each element of a list. -/
theorem exists_objects {α : Type} {P : α → Object → Prop} {xs : List α}
    (h : ∀ x ∈ xs, ∃ o, P x o) : ∃ object : α → Object, ∀ x ∈ xs, P x (object x) := by
  classical
  refine ⟨fun x => if hx : ∃ o, P x o then hx.choose else .nil, fun x hx => ?_⟩
  dsimp only
  rw [dif_pos (h x hx)]
  exact (h x hx).choose_spec

theorem carries_unsigned {w n : Nat} (hw : w ≤ 8) (h : n < 256 ^ w) :
    (unsignedCodec w).Carries n (.positiveInteger n) where
  encodes := encodes_packUInt (Nat.lt_of_lt_of_le h (Nat.pow_le_pow_right (by decide) hw))
  convert _ := if_pos h

theorem carries_signed {w : Nat} {z : Int} (hw : w ≤ 8) (hlow : -(256 ^ w : Int) ≤ 2 * z)
    (hhigh : 2 * z < 256 ^ w) : (signedCodec w).Carries z (intObject z) where
  encodes := by
    have hpow : (256 : Int) ^ w ≤ 256 ^ 8 := by
      exact_mod_cast Nat.pow_le_pow_right (by decide : 0 < 256) hw
    exact encodes_packInt (by omega) (by omega)
  convert _ := by
    unfold intObject signedCodec
    by_cases hz : 0 ≤ z
    · have hcast : ((z.toNat : Nat) : Int) = z := Int.toNat_of_nonneg hz
      have hlt : 2 * z.toNat < 256 ^ w := by
        have hint : ((2 * z.toNat : Nat) : Int) < (256 ^ w : Nat) := by
          push_cast
          omega
        exact_mod_cast hint
      simp only [if_pos hz, if_pos hlt, hcast]
    · simp only [if_neg hz, if_pos hlow]

theorem carries_bool (b : Bool) : boolCodec.Carries b (.boolean b) :=
  ⟨encodes_packBool b, fun _ => rfl⟩

theorem carries_string {data : List UInt8} (h : data.length < 0x100000000) :
    stringCodec.Carries data (.str data) :=
  ⟨encodes_packStr h, fun _ => rfl⟩

theorem carries_binary {data : List UInt8} (h : data.length < 0x100000000) :
    binaryCodec.Carries data (.bin data) :=
  ⟨encodes_packBin h, fun _ => rfl⟩

theorem Codec.Carries.via {α β : Type} {c : Codec β} {f : α → β} {g : β → α} {value : α}
    {o : Object} (h : c.Carries (f value) o) (hinv : g (f value) = value) :
    (c.via f g).Carries value o where
  encodes := h.encodes
  convert held := by
    unfold Codec.via
    dsimp only
    rw [h.convert]
    exact congrArg Except.ok hinv

theorem convertItems_carries {α : Type} {c : Codec α} {fresh : α} {object : α → Object}
    {xs : List α} (h : ∀ x ∈ xs, c.Carries x (object x)) (held : List α) :
    convertItems c fresh held (xs.map object) = .ok xs := by
  induction xs generalizing held with
  | nil => rfl
  | cons x xs ih =>
    have hrest := ih (fun y hy => h y (List.mem_cons_of_mem _ hy)) held.tail
    rw [List.map_cons, convertItems, (h x List.mem_cons_self).convert]
    dsimp only
    rw [hrest]
    rfl

theorem carries_vector {α : Type} {c : Codec α} {fresh : α} {object : α → Object} {xs : List α}
    (hlen : xs.length < 0x100000000) (h : ∀ x ∈ xs, c.Carries x (object x)) :
    (vectorCodec c fresh).Carries xs (.array (xs.map object)) where
  encodes := encodes_packArray hlen fun x hx => (h x hx).encodes
  convert held := convertItems_carries h held

theorem exists_carries_vector {α : Type} {c : Codec α} {fresh : α} {xs : List α}
    (hlen : xs.length < 0x100000000) (h : ∀ x ∈ xs, ∃ o, c.Carries x o) :
    ∃ o, (vectorCodec c fresh).Carries xs o := by
  obtain ⟨object, hobject⟩ := exists_objects h
  exact ⟨_, carries_vector hlen hobject⟩

section Maps

variable {κ ν : Type} [DecidableEq κ] {ck : Codec κ} {cv : Codec ν} {freshKey : κ} {fresh : ν}

/-- Entries with different keys are added one after the other. -/
theorem convertPairs_carries {keyObject : κ × ν → Object} {object : κ × ν → Object}
    {entries : List (κ × ν)} (done : List (κ × ν))
    (hkey : ∀ e ∈ entries, ck.Carries e.1 (keyObject e))
    (hvalue : ∀ e ∈ entries, cv.Carries e.2 (object e))
    (hnodup : ((done ++ entries).map Prod.fst).Nodup) :
    convertPairs ck cv freshKey fresh done (entries.map fun e => (keyObject e, object e)) =
      .ok (done ++ entries) := by
  induction entries generalizing done with
  | nil =>
    rw [List.append_nil]
    rfl
  | cons e entries ih =>
    have hfresh : e.1 ∉ done.map Prod.fst := by
      rw [List.map_append, List.map_cons] at hnodup
      exact fun hmem => (List.nodup_append.mp hnodup).2.2 _ hmem _ List.mem_cons_self rfl
    have hassign : assign done e.1 e.2 = done ++ [e] := if_neg hfresh
    have hnext := ih (done ++ [e]) (fun x hx => hkey x (List.mem_cons_of_mem _ hx))
      (fun x hx => hvalue x (List.mem_cons_of_mem _ hx)) (by simpa using hnodup)
    rw [List.map_cons, convertPairs, (hkey e List.mem_cons_self).convert]
    dsimp only
    rw [(hvalue e List.mem_cons_self).convert]
    dsimp only
    rw [hassign, hnext, List.append_assoc, List.singleton_append]

theorem carries_unorderedMap {keyObject : κ × ν → Object} {object : κ × ν → Object}
    {entries : List (κ × ν)} (hlen : entries.length < 0x100000000)
    (hkey : ∀ e ∈ entries, ck.Carries e.1 (keyObject e))
    (hvalue : ∀ e ∈ entries, cv.Carries e.2 (object e)) (hnodup : (entries.map Prod.fst).Nodup) :
    (unorderedMapCodec ck cv freshKey fresh).Carries entries
      (.map (entries.map fun e => (keyObject e, object e))) where
  encodes := encodes_packMap hlen (fun e he => (hkey e he).encodes) fun e he =>
    (hvalue e he).encodes
  convert _ := convertPairs_carries [] hkey hvalue (by simpa using hnodup)

theorem exists_carries_unorderedMap {entries : List (κ × ν)} (hlen : entries.length < 0x100000000)
    (hkey : ∀ e ∈ entries, ∃ o, ck.Carries e.1 o) (hvalue : ∀ e ∈ entries, ∃ o, cv.Carries e.2 o)
    (hnodup : (entries.map Prod.fst).Nodup) :
    ∃ pairs, (unorderedMapCodec ck cv freshKey fresh).Carries entries (.map pairs) := by
  obtain ⟨keyObject, hkeys⟩ := exists_objects hkey
  obtain ⟨object, hvalues⟩ := exists_objects hvalue
  exact ⟨_, carries_unorderedMap hlen hkeys hvalues hnodup⟩

end Maps

theorem carries_shared_none {α : Type} (c : Codec α) (fresh : α) :
    (sharedCodec c fresh).Carries none .nil :=
  ⟨encodes_packNil, fun _ => rfl⟩

theorem carries_shared_some {α : Type} {c : Codec α} {value : α} {o : Object}
    (h : c.Carries value o) (hnil : o ≠ .nil) (fresh : α) :
    (sharedCodec c fresh).Carries (some value) o where
  encodes := h.encodes
  convert _ := by
    have hconvert := h.convert fresh
    unfold sharedCodec
    dsimp only
    split
    · exact absurd rfl hnil
    · rw [hconvert]
      rfl

/-! ## Records -/

theorem carries_member {ρ α : Type} {name : List UInt8} {c : Codec α} {get : ρ → α}
    {set : ρ → α → ρ} {r : ρ} {o : Object} (h : c.Carries (get r) o) :
    (Member.of name c get set).Carries r o where
  encodes := h.encodes
  convert held := by
    unfold Member.of
    dsimp only
    rw [h.convert]
    rfl

section Records

variable {ρ : Type} {fs : List (Member ρ)} {r : ρ} {object : Member ρ → Object}

theorem convertFields_carries (h : ∀ f ∈ fs, f.Carries r (object f)) (held : ρ) :
    convertFields fs (fs.map object) held = .ok (copyAll fs r held) := by
  induction fs generalizing held with
  | nil => rfl
  | cons f fs ih =>
    rw [List.map_cons, convertFields, (h f List.mem_cons_self).convert]
    exact ih (fun g hg => h g (List.mem_cons_of_mem _ hg)) _

/-- The objects of another version of the record: the members in front are those of `r`. -/
theorem convertFields_take {os : List Object}
    (h : ∀ p ∈ fs.zip os, p.1.Carries r p.2) (held : ρ) :
    convertFields fs os held = .ok (copyAll (fs.take os.length) r held) := by
  induction fs generalizing os held with
  | nil => simp [convertFields, copyAll]
  | cons f fs ih =>
    cases os with
    | nil => rfl
    | cons o os =>
      rw [List.zip_cons_cons] at h
      rw [convertFields, (h _ List.mem_cons_self).convert]
      exact ih (fun p hp => h p (List.mem_cons_of_mem _ hp)) _

theorem carries_defineArray (hlen : fs.length < 0x100000000)
    (h : ∀ f ∈ fs, f.Carries r (object f)) (hall : ∀ held, copyAll fs r held = r) :
    (defineArray fs).Carries r (.array (fs.map object)) where
  encodes := encodes_packArray hlen fun f hf => (h f hf).encodes
  convert held := by
    unfold defineArray
    dsimp only
    rw [convertFields_carries h held, hall]

theorem keyed_map {α : Type} (name : α → List UInt8) (value : α → Object) (xs : List α) :
    keyed (xs.map fun x => (.str (name x), value x)) = .ok (xs.map fun x => (name x, value x)) := by
  induction xs with
  | nil => rfl
  | cons x xs ih =>
    rw [List.map_cons, keyed, ih]
    rfl

theorem lookup_map_object (object : List UInt8 × List UInt8 → Object)
    (sent : List (List UInt8 × List UInt8)) (name : List UInt8) :
    (sent.map fun p => (p.1, object p)).lookup name =
      (sent.lookup name).map fun bytes => object (name, bytes) := by
  induction sent with
  | nil => rfl
  | cons p sent ih =>
    rw [List.map_cons, List.lookup_cons, List.lookup_cons, ih]
    by_cases hname : name = p.1
    · subst hname
      simp
    · rw [beq_false_of_ne hname]

/-- Where the members come from: each name that there is has the object of the member. -/
theorem convertNamed_carries {objects : List (List UInt8 × Object)}
    (h : ∀ f ∈ fs, ∀ o, objects.lookup f.name = some o → f.Carries r o) (held : ρ) :
    convertNamed objects fs held =
      .ok (copyAll (fs.filter fun f => (objects.lookup f.name).isSome) r held) := by
  induction fs generalizing held with
  | nil => rfl
  | cons f fs ih =>
    have hrest := ih fun g hg => h g (List.mem_cons_of_mem _ hg)
    unfold convertNamed
    cases hlookup : objects.lookup f.name with
    | none =>
      rw [List.filter_cons_of_neg (by simp [hlookup])]
      exact hrest held
    | some o =>
      rw [List.filter_cons_of_pos (by simp [hlookup])]
      dsimp only
      rw [(h f List.mem_cons_self o hlookup).convert]
      exact hrest _

/-- A map with any keys in any order: the members whose names are keys are those of the record, and
the others are kept. -/
theorem convert_defineMap {pairs : List (Object × Object)}
    {objects : List (List UInt8 × Object)} (hkeys : keyed pairs = .ok objects)
    (h : ∀ f ∈ fs, ∀ o, objects.lookup f.name = some o → f.Carries r o) (held : ρ) :
    (defineMap fs).convert held (.map pairs) =
      .ok (copyAll (fs.filter fun f => (objects.lookup f.name).isSome) r held) := by
  unfold defineMap
  dsimp only
  rw [hkeys]
  exact convertNamed_carries h held

theorem lookup_map_name (object : Member ρ → Object) (hnames : (fs.map (·.name)).Nodup)
    {f : Member ρ} (hf : f ∈ fs) :
    (fs.map fun f => (f.name, object f)).lookup f.name = some (object f) := by
  induction fs with
  | nil => cases hf
  | cons g fs ih =>
    rw [List.map_cons, List.nodup_cons] at hnames
    rw [List.map_cons, List.lookup_cons]
    rcases List.mem_cons.mp hf with rfl | hf
    · simp
    · have hne : f.name ≠ g.name := fun heq => hnames.1 (heq ▸ List.mem_map_of_mem hf)
      rw [beq_false_of_ne hne]
      exact ih hnames.2 hf

theorem carries_defineMap (hlen : fs.length < 0x100000000)
    (hsizes : ∀ f ∈ fs, f.name.length < 0x100000000) (hnames : (fs.map (·.name)).Nodup)
    (h : ∀ f ∈ fs, f.Carries r (object f)) (hall : ∀ held, copyAll fs r held = r) :
    (defineMap fs).Carries r (.map (fs.map fun f => (.str f.name, object f))) where
  encodes := encodes_packMap hlen (fun f hf => encodes_packStr (hsizes f hf)) fun f hf =>
    (h f hf).encodes
  convert held := by
    have hlookup := fun f (hf : f ∈ fs) => lookup_map_name object hnames hf
    rw [convert_defineMap (r := r) (keyed_map _ _ fs), List.filter_eq_self.mpr, hall]
    · intro f hf
      rw [hlookup f hf]
      rfl
    · intro f hf o ho
      rw [hlookup f hf] at ho
      cases ho
      exact h f hf

theorem exists_carries_defineArray (hlen : fs.length < 0x100000000)
    (h : ∀ f ∈ fs, ∃ o, f.Carries r o) (hall : ∀ held, copyAll fs r held = r) :
    ∃ o, (defineArray fs).Carries r o := by
  obtain ⟨object, hobject⟩ := exists_objects h
  exact ⟨_, carries_defineArray hlen hobject hall⟩

theorem exists_carries_defineMap (hlen : fs.length < 0x100000000)
    (hsizes : ∀ f ∈ fs, f.name.length < 0x100000000) (hnames : (fs.map (·.name)).Nodup)
    (h : ∀ f ∈ fs, ∃ o, f.Carries r o) (hall : ∀ held, copyAll fs r held = r) :
    ∃ o, (defineMap fs).Carries r o := by
  obtain ⟨object, hobject⟩ := exists_objects h
  exact ⟨_, carries_defineMap hlen hsizes hnames hobject hall⟩

end Records

end Msgpack
