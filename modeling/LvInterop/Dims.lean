import LvInterop.Lib.Checked
import LvInterop.Labview
import Mathlib.Algebra.BigOperators.Group.List.Basic
import Mathlib.Data.Nat.Cast.Basic
import Mathlib.Data.Int.Cast.Lemmas

/-!
# LvInterop.Dims

The dimension header of an array (`types/array/dimensions.rs`): `D` signed
words, of which nothing checks that they are not negative.

`elementCount` multiplies them with a checked fold that stops at the first
negative entry or overflow.  Seen from outside it is the product over the
integers where that is a `usize`, and 0 everywhere else
(`elementCount_of_valid`, `elementCount_of_not_valid`).

The conversions from and to `usize` stop at the first entry out of range.  They
agree on what a header says (`Shape`), so each undoes the other
(`conversions_inverse`).
-/

namespace LvInterop

open Lib

/-- `LVArrayDims<D>`: an array of `D` words. -/
structure LVArrayDims (D : Nat) where
  val : List Int32
  length_val : val.length = D
deriving DecidableEq, Repr

/-- `i32::try_from` on a `usize`. -/
def i32TryFrom (n : Nat) : Option Int32 := if n < 2 ^ 31 then some (.ofNat n) else none

namespace LVArrayDims

/-- `LVArrayDims::new_empty`. -/
def newEmpty (D : Nat) : LVArrayDims D := ⟨List.replicate D 0, by simp⟩

/-- `LVArrayDims::element_count`: a `try_fold` with `usize::try_from` and
`checked_mul`. -/
def elementCount (width : PtrWidth) (self : LVArrayDims D) : Nat :=
  (checkedFold width.usizeMax usizeTryFrom 1 self.val).getD 0

/-- `TryFrom<&[usize; D]>`: the first entry that is no `i32` ends the loop. -/
def tryFromArray (value : { l : List Nat // l.length = D }) : Result (LVArrayDims D) :=
  match h : value.val.mapM i32TryFrom with
  | some dimensions => .ok ⟨dimensions, by
      rw [length_of_mapM_eq_some h, value.property]⟩
  | none => .error (.internalError .arrayDimensionsOutOfRange)

/-- `TryFrom<&[usize]>`. -/
def tryFrom (D : Nat) (value : List Nat) : Result (LVArrayDims D) :=
  if h : value.length = D then tryFromArray ⟨value, h⟩
  else .error (.internalError .arrayDimensionMismatch)

/-- `LVArrayDims::try_to_usize_array`. -/
def tryToUsizeArray (self : LVArrayDims D) : Result (List Nat) :=
  match self.val.mapM usizeTryFrom with
  | some usize_values => .ok usize_values
  | none => .error (.internalError .arrayDimensionsOutOfRange)

/-- `From<LVArrayDims<D>> for [usize; D]`, which panics on a negative entry. -/
def intoUsizeArray (self : LVArrayDims D) : Exec σ LVInteropError (List Nat) :=
  match self.val.mapM usizeTryFrom with
  | some usize_values => pure usize_values
  | none => Exec.unwind

/-! ## shapes -/

/-- The header says what the shape says. -/
def Shape (self : LVArrayDims D) (dim : List Nat) : Prop :=
  self.val.map Int32.toInt = dim.map Nat.cast

theorem ext {a b : LVArrayDims D} (h : a.val = b.val) : a = b := by
  cases a
  cases b
  cases h
  rfl

theorem usizeTryFrom_eq_some_iff {d : Int32} {n : Nat} :
    usizeTryFrom d = some n ↔ d.toInt = n := by
  unfold usizeTryFrom
  split_ifs with h
  · rw [Option.some_inj]
    omega
  · constructor
    · intro hc
      cases hc
    · intro hc
      omega

theorem i32TryFrom_eq_some_iff {n : Nat} {d : Int32} : i32TryFrom n = some d ↔ d.toInt = n := by
  unfold i32TryFrom
  split_ifs with h
  · rw [Option.some_inj, ← Int32.toInt_inj, Int32.toInt_ofNat_of_lt h, eq_comm]
  · constructor
    · intro hc
      cases hc
    · intro hc
      have := d.toInt_lt
      omega

/-- Entries that all convert are the numbers they stand for. -/
theorem map_usizeTryFrom_iff {dims : List Int32} {ns : List Nat} :
    dims.map usizeTryFrom = ns.map some ↔ dims.map Int32.toInt = ns.map Nat.cast :=
  map_eq_map_some_iff fun _ _ => usizeTryFrom_eq_some_iff

theorem map_i32TryFrom_iff {ns : List Nat} {dims : List Int32} :
    ns.map i32TryFrom = dims.map some ↔ dims.map Int32.toInt = ns.map Nat.cast := by
  rw [eq_comm (a := dims.map Int32.toInt)]
  exact map_eq_map_some_iff fun _ _ => i32TryFrom_eq_some_iff.trans eq_comm

/-- A shape has as many axes as its header. -/
theorem Shape.length_eq {dims : LVArrayDims D} {dim : List Nat} (h : dims.Shape dim) :
    dim.length = D := by
  have hlen := congrArg List.length h
  rw [List.length_map, List.length_map, dims.length_val] at hlen
  exact hlen.symm

theorem tryFromArray_eq_ok_iff {value : { l : List Nat // l.length = D }} {dims : LVArrayDims D} :
    tryFromArray value = .ok dims ↔ dims.Shape value.val := by
  rw [Shape, ← map_i32TryFrom_iff, ← mapM_eq_some_iff]
  unfold tryFromArray
  split
  · next dimensions h =>
    constructor
    · intro heq
      rw [← Except.ok.inj heq]
      exact h
    · intro heq
      exact congrArg Except.ok (LVArrayDims.ext (Option.some.inj (h.symm.trans heq)))
  · next h =>
    rw [h]
    exact ⟨nofun, nofun⟩

/-- `try_from` succeeds on the shapes of headers. -/
theorem tryFrom_eq_ok_iff {dim : List Nat} {dims : LVArrayDims D} :
    tryFrom D dim = .ok dims ↔ dims.Shape dim := by
  unfold tryFrom
  split_ifs with h
  · exact tryFromArray_eq_ok_iff
  · exact ⟨nofun, fun hs => absurd hs.length_eq h⟩

/-- `try_to_usize_array` succeeds on the headers of shapes. -/
theorem tryToUsizeArray_eq_ok_iff {self : LVArrayDims D} {dim : List Nat} :
    self.tryToUsizeArray = .ok dim ↔ self.Shape dim := by
  rw [Shape, ← map_usizeTryFrom_iff, ← mapM_eq_some_iff]
  unfold tryToUsizeArray
  cases hm : self.val.mapM usizeTryFrom with
  | some l => simp
  | none => simp

/-- The panicking conversion is `try_to_usize_array` unwrapped. -/
theorem intoUsizeArray_eq_unwrap (self : LVArrayDims D) :
    (self.intoUsizeArray : Exec σ LVInteropError (List Nat)) = Exec.unwrap self.tryToUsizeArray := by
  unfold intoUsizeArray tryToUsizeArray
  cases self.val.mapM usizeTryFrom with
  | some l => rfl
  | none => rfl

/-- It panics where the other one returns an error. -/
theorem intoUsizeArray_panic_iff {self : LVArrayDims D} {s : σ} :
    (self.intoUsizeArray s).1 = .panic ↔ ∃ e, self.tryToUsizeArray = .error e := by
  rw [intoUsizeArray_eq_unwrap]
  cases self.tryToUsizeArray with
  | ok l => simp
  | error e => simp

/-- It succeeds on the same. -/
theorem intoUsizeArray_run_iff {self : LVArrayDims D} {dim : List Nat} {s : σ} :
    self.intoUsizeArray s = (.ok dim, s) ↔ self.Shape dim := by
  rw [← tryToUsizeArray_eq_ok_iff, intoUsizeArray_eq_unwrap]
  cases self.tryToUsizeArray with
  | ok l => simp
  | error e => simp

/-- A header without a shape panics. -/
theorem intoUsizeArray_of_not_shape {self : LVArrayDims D} (h : ∀ dim, ¬ self.Shape dim) (s : σ) :
    self.intoUsizeArray s = (.panic, s) := by
  rw [intoUsizeArray_eq_unwrap]
  cases ht : self.tryToUsizeArray with
  | ok l => exact absurd (tryToUsizeArray_eq_ok_iff.mp ht) (h l)
  | error e => rfl

/-! ## the product over the integers -/

/-- The product of the entries over unbounded integers. -/
def product (self : LVArrayDims D) : Int := (self.val.map Int32.toInt).prod

/-- No entry is negative and the product is a `usize`. -/
structure Valid (width : PtrWidth) (dims : LVArrayDims D) : Prop where
  nonneg : ∀ d ∈ dims.val, 0 ≤ d.toInt
  fits : dims.product ≤ width.usizeMax

instance (width : PtrWidth) (self : LVArrayDims D) : Decidable (self.Valid width) :=
  decidable_of_iff
    (self.val.all (fun d => decide (0 ≤ d.toInt)) = true ∧ self.product ≤ width.usizeMax)
    ⟨fun h => ⟨by simpa using h.1, h.2⟩, fun h => ⟨by simpa using h.nonneg, h.fits⟩⟩

/-- A header without negative entries has a shape. -/
theorem exists_shape {self : LVArrayDims D} (h : ∀ d ∈ self.val, 0 ≤ d.toInt) :
    ∃ dim, self.Shape dim := by
  refine ⟨self.val.map fun d => d.toInt.toNat, ?_⟩
  rw [Shape, List.map_map]
  exact List.map_congr_left fun d hd => (Int.toNat_of_nonneg (h d hd)).symm

/-- A header with a shape has no negative entries. -/
theorem Shape.nonneg {self : LVArrayDims D} {dim : List Nat} (h : self.Shape dim) :
    ∀ d ∈ self.val, 0 ≤ d.toInt := by
  intro d hd
  have hmem := List.mem_map_of_mem (f := Int32.toInt) hd
  rw [h] at hmem
  obtain ⟨k, -, hk⟩ := List.mem_map.mp hmem
  exact hk ▸ Int.natCast_nonneg k

theorem Shape.product {self : LVArrayDims D} {dim : List Nat} (h : self.Shape dim) :
    self.product = (dim.prod : Nat) := by
  rw [LVArrayDims.product, h]
  exact (map_list_prod (Nat.castRingHom Int) dim).symm

/-- A fold that arrives has the whole product, of valid entries. -/
theorem valid_of_checkedFold {width : PtrWidth} {self : LVArrayDims D} {n : Nat}
    (h : checkedFold width.usizeMax usizeTryFrom 1 self.val = some n) :
    self.Valid width ∧ self.product = n := by
  obtain ⟨ns, hns, hn, hmax⟩ := checkedFold_eq_some (by cases width <;> decide) h
  have hshape : self.Shape ns := map_usizeTryFrom_iff.mp hns
  rw [Nat.one_mul] at hn
  have heq : self.product = n := by rw [hshape.product, hn]
  exact ⟨⟨hshape.nonneg, by rw [heq]; exact_mod_cast hmax⟩, heq⟩

/-- Valid dimensions have as many elements as their product says. -/
theorem elementCount_of_valid {width : PtrWidth} {self : LVArrayDims D} (h : self.Valid width) :
    (self.elementCount width : Int) = self.product := by
  rw [elementCount]
  cases hf : checkedFold width.usizeMax usizeTryFrom 1 self.val with
  | some n => exact (valid_of_checkedFold hf).2.symm
  | none =>
      obtain ⟨dim, hshape⟩ := exists_shape h.nonneg
      have hfits : dim.prod ≤ width.usizeMax := by exact_mod_cast hshape.product ▸ h.fits
      obtain hz | hlt := checkedFold_eq_none (map_usizeTryFrom_iff.mpr hshape) hf
      · rw [hshape.product, hz]
        rfl
      · omega

/-- Other dimensions count as empty. -/
theorem elementCount_of_not_valid {width : PtrWidth} {self : LVArrayDims D}
    (h : ¬ self.Valid width) : self.elementCount width = 0 := by
  rw [elementCount]
  cases hf : checkedFold width.usizeMax usizeTryFrom 1 self.val with
  | some n => exact absurd (valid_of_checkedFold hf).1 h
  | none => rfl

/-- The count is the product of valid dimensions, and 0 of all others. -/
theorem elementCount_eq_ite (width : PtrWidth) (self : LVArrayDims D) :
    (self.elementCount width : Int) = if self.Valid width then self.product else 0 := by
  split_ifs with h
  · exact elementCount_of_valid h
  · rw [elementCount_of_not_valid h]
    rfl

/-- The product does not depend on the order of the entries. -/
theorem product_perm {a b : LVArrayDims D} (h : a.val.Perm b.val) : a.product = b.product :=
  (h.map Int32.toInt).prod_eq

theorem Valid.perm {width : PtrWidth} {a b : LVArrayDims D} (h : a.val.Perm b.val)
    (ha : a.Valid width) : b.Valid width :=
  ⟨fun d hd => ha.nonneg d (h.mem_iff.mpr hd), product_perm h ▸ ha.fits⟩

/-- Neither does the count, although the fold stops at the first entry that
leaves the range. -/
theorem elementCount_perm {width : PtrWidth} {a b : LVArrayDims D} (h : a.val.Perm b.val) :
    a.elementCount width = b.elementCount width := by
  by_cases ha : a.Valid width
  · have hcount := elementCount_of_valid (ha.perm h)
    rw [← product_perm h, ← elementCount_of_valid ha] at hcount
    exact_mod_cast hcount.symm
  · have hb : ¬ b.Valid width := fun hb => ha (hb.perm h.symm)
    rw [elementCount_of_not_valid ha, elementCount_of_not_valid hb]

/-- A zero behind a prefix that overflows still counts as no elements. -/
example : elementCount .w32 (⟨[65536, 65536, 0], rfl⟩ : LVArrayDims 3) = 0 := by decide

/-! ## the conversions against each other -/

theorem i32TryFrom_eq_none_iff {n : Nat} : i32TryFrom n = none ↔ 2 ^ 31 ≤ n := by
  simp [i32TryFrom]

theorem usizeTryFrom_eq_none_iff {d : Int32} : usizeTryFrom d = none ↔ d.toInt < 0 := by
  simp [usizeTryFrom]

/-- The axes of a header are words. -/
theorem Shape.lt {self : LVArrayDims D} {dim : List Nat} (h : self.Shape dim) :
    ∀ n ∈ dim, n < 2 ^ 31 := by
  intro n hn
  have hmem : (n : Int) ∈ dim.map Nat.cast := List.mem_map_of_mem hn
  rw [← h] at hmem
  obtain ⟨d, -, hd⟩ := List.mem_map.mp hmem
  have hlt := d.toInt_lt
  omega

/-- Axes that are words have a header. -/
theorem exists_header {dim : List Nat} (hlen : dim.length = D) (hlt : ∀ n ∈ dim, n < 2 ^ 31) :
    ∃ self : LVArrayDims D, self.Shape dim := by
  refine ⟨⟨dim.map Int32.ofNat, by rw [List.length_map, hlen]⟩, ?_⟩
  rw [Shape, List.map_map]
  exact List.map_congr_left fun n hn => Int32.toInt_ofNat_of_lt (hlt n hn)

/-- `try_from` on a slice of another length. -/
theorem tryFrom_of_length_ne {dim : List Nat} (h : dim.length ≠ D) :
    tryFrom D dim = .error (.internalError .arrayDimensionMismatch) := dif_neg h

/-- `try_from` on an entry that is no `i32`, wherever it stands. -/
theorem tryFrom_of_outOfRange {dim : List Nat} (hlen : dim.length = D)
    (h : ∃ n ∈ dim, 2 ^ 31 ≤ n) :
    tryFrom D dim = .error (.internalError .arrayDimensionsOutOfRange) := by
  have hnone : dim.mapM i32TryFrom = none := by
    simpa [mapM_eq_none_iff, i32TryFrom_eq_none_iff] using h
  rw [tryFrom, dif_pos hlen, tryFromArray]
  split
  · next dimensions hsome => cases hnone.symm.trans hsome
  · rfl

/-- `try_to_usize_array` on a negative entry, wherever it stands. -/
theorem tryToUsizeArray_of_neg {self : LVArrayDims D} (h : ∃ d ∈ self.val, d.toInt < 0) :
    self.tryToUsizeArray = .error (.internalError .arrayDimensionsOutOfRange) := by
  have hnone : self.val.mapM usizeTryFrom = none := by
    simpa [mapM_eq_none_iff, usizeTryFrom_eq_none_iff] using h
  rw [tryToUsizeArray, hnone]

/-- The conversion of `value` succeeds in range, names what is wrong otherwise,
and is undone by both ways back. -/
structure ConvertsFrom (D : Nat) (value : List Nat) : Prop where
  ok_iff : (∃ dims, tryFrom D value = .ok dims) ↔ value.length = D ∧ ∀ n ∈ value, n < 2 ^ 31
  array : ∀ h, tryFromArray ⟨value, h⟩ = tryFrom D value
  mismatch : value.length ≠ D → tryFrom D value = .error (.internalError .arrayDimensionMismatch)
  outOfRange : value.length = D → (∃ n ∈ value, 2 ^ 31 ≤ n) →
    tryFrom D value = .error (.internalError .arrayDimensionsOutOfRange)
  back : ∀ dims, tryFrom D value = .ok dims → dims.tryToUsizeArray = .ok value ∧
    ∀ {σ : Type} (s : σ), dims.intoUsizeArray s = (.ok value, s)

/-- The conversions of `dims` succeed where no entry is negative, are undone by
the way back, and fail together. -/
structure ConvertsTo (dims : LVArrayDims D) : Prop where
  ok_iff : (∃ value, dims.tryToUsizeArray = .ok value) ↔ ∀ d ∈ dims.val, 0 ≤ d.toInt
  outOfRange : (∃ d ∈ dims.val, d.toInt < 0) →
    dims.tryToUsizeArray = .error (.internalError .arrayDimensionsOutOfRange)
  back : ∀ value, dims.tryToUsizeArray = .ok value → tryFrom D value = .ok dims ∧
    ∃ h, tryFromArray ⟨value, h⟩ = .ok dims
  panic_iff : ∀ {σ : Type} (s : σ),
    (dims.intoUsizeArray s).1 = .panic ↔ ∃ e, dims.tryToUsizeArray = .error e

theorem convertsFrom (D : Nat) (value : List Nat) : ConvertsFrom D value where
  ok_iff := by
    constructor
    · rintro ⟨dims, h⟩
      have hshape := tryFrom_eq_ok_iff.mp h
      exact ⟨hshape.length_eq, hshape.lt⟩
    · rintro ⟨hlen, hlt⟩
      obtain ⟨dims, hshape⟩ := exists_header hlen hlt
      exact ⟨dims, tryFrom_eq_ok_iff.mpr hshape⟩
  array h := by rw [tryFrom, dif_pos h]
  mismatch := tryFrom_of_length_ne
  outOfRange := tryFrom_of_outOfRange
  back dims h := by
    have hshape := tryFrom_eq_ok_iff.mp h
    exact ⟨tryToUsizeArray_eq_ok_iff.mpr hshape, fun s => intoUsizeArray_run_iff.mpr hshape⟩

theorem convertsTo (dims : LVArrayDims D) : ConvertsTo dims where
  ok_iff := by
    constructor
    · rintro ⟨value, h⟩
      exact (tryToUsizeArray_eq_ok_iff.mp h).nonneg
    · intro h
      obtain ⟨value, hshape⟩ := exists_shape h
      exact ⟨value, tryToUsizeArray_eq_ok_iff.mpr hshape⟩
  outOfRange := tryToUsizeArray_of_neg
  back value h := by
    have hshape := tryToUsizeArray_eq_ok_iff.mp h
    exact ⟨tryFrom_eq_ok_iff.mpr hshape, hshape.length_eq, tryFromArray_eq_ok_iff.mpr hshape⟩
  panic_iff _ := intoUsizeArray_panic_iff

/-- **The conversions are inverse to each other and fail together.** -/
theorem conversions_inverse (value : List Nat) (dims : LVArrayDims D) :
    ConvertsFrom D value ∧ ConvertsTo dims :=
  ⟨convertsFrom D value, convertsTo dims⟩

end LVArrayDims

end LvInterop
