import LvInterop.Lib.RowMajor
import LvInterop.Resize

/-!
# LvInterop.Ndarray

Copying to and from `ndarray` views (`types/array/ndarray.rs`, 64-bit only).

Three orders have to agree: the strides of the source view, the order in which
its iterator meets the flat slice of the array, and the row-major order in
which a view of the array reads that slice back.

`ndarray` itself is a parameter (`Ndarray`), with what it documents of its
iterators and of `from_shape` (`Ndarray.Lawful`).
-/

namespace LvInterop

open Lib

variable {τ : Type} {D : Nat} {T : NumericArrayResizable}

/-- `isize::MAX` on 64-bit targets. -/
def isizeMax : Nat := 2 ^ 63 - 1

/-- The lengths of the axes that are not empty multiply to an `isize`: the
bound `ndarray` puts on every shape. -/
def ShapeOk (dim : List Nat) : Prop := (dim.filter (· ≠ 0)).prod ≤ isizeMax

instance (dim : List Nat) : Decidable (ShapeOk dim) := inferInstanceAs (Decidable (_ ≤ _))

/-- `ArrayView`: a pointer, a shape, and a stride for each axis.  `storage` is
what the pointer's allocation holds, by offset. -/
structure ArrayView (D : Nat) (α : Type) where
  dim : List Nat
  strides : List Int
  ptr : Int
  storage : Int → α
  length_dim : dim.length = D
  shapeOk : ShapeOk dim

/-- The element at a multi-index. -/
def ArrayView.get (self : ArrayView D α) (ix : List Nat) : α :=
  self.storage (self.ptr + (List.zipWith (fun (s : Int) (i : Nat) => s * i) self.strides ix).sum)

/-- The functions of `ndarray` the crate calls. -/
structure Ndarray (D : Nat) (α : Type) where
  /-- `ArrayView::iter` -/
  iter : ArrayView D α → List α
  /-- `ArrayView::from_shape`; `none` is a `ShapeError` -/
  fromShape : List Nat → List α → Option (ArrayView D α)

/-- What `ndarray` documents. -/
structure Ndarray.Lawful (nd : Ndarray D α) : Prop where
  /-- elements are visited in logical order, the last axis fastest -/
  iter : ∀ v, nd.iter v = (indices v.dim).map v.get
  /-- a shape within bounds that needs no more than the slice has is a
  row-major view of it -/
  fromShape : ∀ dim data, dim.length = D → ShapeOk dim → dim.prod ≤ data.length →
    ∃ v, nd.fromShape dim data = some v ∧ v.dim = dim ∧
      ∀ ix, IsIndex dim ix → data[flatIndex dim ix]? = some (v.get ix)

/-! ## views of an array -/

namespace LVArray

/-- `LVArray::ndarray_dim`. -/
def ndarrayDim (D : Nat) (self : Nat) : Exec (World τ) LVInteropError (List Nat) :=
  fun w => (dimSizes D self w).intoUsizeArray w

/-- `LVArray::ndarray_view`. -/
def ndarrayView (nd : Ndarray D T.Val) (self : Nat) :
    Exec (World τ) LVInteropError (ArrayView D T.Val) := do
  let dim_sizes ← ndarrayDim D self
  let data ← Exec.read (dataAsSlice .w64 D T self)
  match nd.fromShape dim_sizes data with
  | some view => pure view
  | none => Exec.unwind

/-- The copy loop over `data_as_slice_mut().iter_mut().zip(..)`, which stops at
the end of the slice or of the values. -/
def copyElements (D : Nat) (T : NumericArrayResizable) (self : Nat) (values : List T.Val)
    (w : World τ) : World τ :=
  w.write (elementPtr .w64 D T self 0)
    ((values.take (elementCount .w64 D self w)).flatMap Subtype.val)

end LVArray

/-- `LVArrayHandle::copy_from_ndarray_view`. -/
def LVArrayHandle.copyFromNdarray (memoryApi : Result (MemoryApi τ)) (nd : Ndarray D T.Val)
    (array : ArrayView D T.Val) : Exec (Slot τ) LVInteropError Unit := do
  let own_dim ← Slot.onWorld fun self => do
    let lv_array ← self.deref
    LVArray.ndarrayDim D lv_array.addr
  if array.dim ≠ own_dim then
    let new_dims ← Exec.ofExcept (LVArrayDims.tryFrom D array.dim)
    resizeArray memoryApi .w64 D T new_dims
  Slot.onWorld fun self => do
    let lv_array ← Exec.tryRead self.asRefMut
    Exec.modify (LVArray.copyElements D T lv_array.addr (nd.iter array))

/-! ## sizes -/

/-- Leaving out empty axes can only make the product larger. -/
theorem prod_le_prod_filter (dim : List Nat) : dim.prod ≤ (dim.filter (· ≠ 0)).prod := by
  induction dim with
  | nil => exact Nat.le_refl _
  | cons d dim ih =>
      by_cases hd : d = 0
      · simp [hd]
      · simp only [List.filter_cons, hd, ne_eq, not_false_eq_true, decide_true, if_true,
          List.prod_cons]
        exact Nat.mul_le_mul_left d ih

/-- The header of a view counts its elements. -/
theorem LVArrayDims.Shape.elementCount {dims : LVArrayDims D} {dim : List Nat}
    (h : dims.Shape dim) (hok : ShapeOk dim) : dims.elementCount .w64 = dim.prod := by
  have hle : dim.prod ≤ PtrWidth.w64.usizeMax :=
    Nat.le_trans (prod_le_prod_filter dim) (Nat.le_trans hok (by decide))
  have hvalid : dims.Valid .w64 := ⟨h.nonneg, by rw [h.product]; exact_mod_cast hle⟩
  have hcount := LVArrayDims.elementCount_of_valid hvalid
  rw [h.product] at hcount
  exact_mod_cast hcount

/-! ## the copy loop -/

namespace LVArray

theorem elementPtr_eq (width : PtrWidth) (D : Nat) (T : NumericArrayResizable) (self i : Nat) :
    elementPtr width D T self i = elementPtr width D T self 0 + T.size * i := by
  simp only [elementPtr, Nat.mul_zero, Nat.add_zero]

/-- The loop does not touch the header. -/
theorem dimSizes_copyElements (self : Nat) (values : List T.Val) (w : World τ) :
    dimSizes D self (copyElements D T self values w) = dimSizes D self w :=
  dimSizes_write_of_le (le_elementPtr self 0)

/-- Values that fill the slice are read back from it. -/
theorem dataAsSlice_copyElements {self : Nat} {values : List T.Val} {w : World τ}
    (hlen : values.length = elementCount .w64 D self w) :
    dataAsSlice .w64 D T self (copyElements D T self values w) = values := by
  have hcount : elementCount .w64 D self (copyElements D T self values w) = values.length := by
    rw [elementCount, dimSizes_copyElements, hlen]
    rfl
  have hsize : ∀ v : T.Val, v.val.length = T.size := fun v => v.property
  have hbytes := length_flatMap_of_length hsize values
  have hread := readBytes_writeBytes w.mem (elementPtr .w64 D T self 0) (values.flatMap Subtype.val)
  apply List.ext_getElem (by simp [dataAsSlice, hcount])
  intro i _ hi
  apply Subtype.ext
  have hend : T.size * i + T.size ≤ (values.flatMap Subtype.val).length := by
    rw [hbytes, ← Nat.mul_succ]
    exact Nat.mul_le_mul_left _ hi
  have hpiece := congrArg (piece T.size i) hread
  rw [piece_readBytes _ hend, piece_flatMap hsize values i hi, ← elementPtr_eq] at hpiece
  simp only [dataAsSlice, List.getElem_map, List.getElem_range, getValueUnchecked, copyElements,
    World.write_mem, ← hlen, List.take_length]
  exact hpiece

/-- The loop stays in a block that the header fits. -/
theorem Fits.sameBut_copyElements {w : World τ} (hw : w.BlocksApart) {h : UHandle}
    (hf : Fits .w64 D T w h) (values : List T.Val) :
    w.SameBut (copyElements D T (w.addr h) values w) h := by
  have hsize : ∀ v : T.Val, v.val.length = T.size := fun v => v.property
  have hlen := length_flatMap_of_length hsize
    (values.take (elementCount .w64 D (w.addr h) w))
  cases hcount : elementCount .w64 D (w.addr h) w with
  | zero =>
      intro k _
      have hnone : copyElements D T (w.addr h) values w = w := by
        rw [copyElements, hcount, List.take_zero, List.flatMap_nil, World.write, writeBytes_nil]
      rw [hnone]
      exact .refl w k
  | succ m =>
      have htake : (values.take (m + 1)).length ≤ m + 1 := List.length_take_le _ _
      have hbytes := Nat.mul_le_mul_left T.size htake
      rw [hcount] at hlen
      refine hf.sameBut_write hw (i := m) (by omega) _ (Nat.le_refl _) ?_
      rw [hcount, hlen, elementPtr_eq .w64 D T (w.addr h) m]
      rw [Nat.mul_succ] at hbytes
      omega

end LVArray

/-! ## `copy_from_ndarray`, case by case -/

namespace LVArrayHandle

variable {inv : World τ → Prop} {api : MemoryApi τ} {nd : Ndarray D T.Val}
variable {array : ArrayView D T.Val}

/-- The last part of `copy_from_ndarray`, once the shapes agree. -/
theorem copyStage_run (hapi : api.Lawful .w64 inv) {s : Slot τ} (hu : s.Usable inv)
    (values : List T.Val) :
    (Slot.onWorld fun self => do
        let lv_array ← Exec.tryRead self.asRefMut
        Exec.modify (LVArray.copyElements D T lv_array.addr values) :
      Exec (Slot τ) LVInteropError Unit) s =
      (.ok (), ⟨s.handle, LVArray.copyElements D T (s.world.addr s.handle) values s.world⟩) := by
  have href : (Exec.tryRead s.handle.asRefMut : Exec (World τ) LVInteropError FatPtr) s.world =
      (.ok ⟨s.world.addr s.handle, (s.world.master s.handle).next⟩, s.world) :=
    Exec.tryRead_of_ok (UHandle.asRef_of_usable hapi hu)
  simp only [Slot.onWorld, Exec.bind_of_ok href, Exec.modify_run]

/-- The first part: the shape of the array as it is. -/
theorem ownDim_run (hapi : api.Lawful .w64 inv) {s : Slot τ} (hu : s.Usable inv) :
    (Slot.onWorld fun self => do
        let lv_array ← self.deref
        LVArray.ndarrayDim D lv_array.addr :
      Exec (Slot τ) LVInteropError (List Nat)) s =
      ((LVArray.ndarrayDim D (s.world.addr s.handle) s.world).1,
        ⟨s.handle, (LVArray.ndarrayDim D (s.world.addr s.handle) s.world).2⟩) := by
  have hd : (s.handle.deref : Exec (World τ) LVInteropError FatPtr) s.world =
      (.ok ⟨s.world.addr s.handle, (s.world.master s.handle).next⟩, s.world) :=
    Exec.unwrapRead_of_ok (UHandle.asRef_of_usable hapi hu)
  simp only [Slot.onWorld, Exec.bind_of_ok hd]

theorem ownDim_of_shape (hapi : api.Lawful .w64 inv) {s : Slot τ} (hu : s.Usable inv)
    {dim : List Nat} (hshape : (LVArray.dimSizes D (s.world.addr s.handle) s.world).Shape dim) :
    (Slot.onWorld fun self => do
        let lv_array ← self.deref
        LVArray.ndarrayDim D lv_array.addr :
      Exec (Slot τ) LVInteropError (List Nat)) s = (.ok dim, s) := by
  have hdim : LVArray.ndarrayDim D (s.world.addr s.handle) s.world = (.ok dim, s.world) :=
    LVArrayDims.intoUsizeArray_run_iff.mpr hshape
  rw [ownDim_run hapi hu, hdim]

/-- Dimensions that are no shape make the first part panic. -/
theorem copyFromNdarray_of_not_shape (hapi : api.Lawful .w64 inv) (nd : Ndarray D T.Val)
    (array : ArrayView D T.Val) {s : Slot τ} (hu : s.Usable inv)
    (hno : ∀ dim, ¬ (LVArray.dimSizes D (s.world.addr s.handle) s.world).Shape dim) :
    copyFromNdarray (.ok api) nd array s = (.panic, s) := by
  have hown := ownDim_run (D := D) hapi hu
  have hdim : LVArray.ndarrayDim D (s.world.addr s.handle) s.world = (.panic, s.world) :=
    LVArrayDims.intoUsizeArray_of_not_shape hno s.world
  rw [hdim] at hown
  rw [copyFromNdarray, Exec.bind_of_panic hown]

/-- `copy_from_ndarray` on an array of the shape of the view. -/
theorem copyFromNdarray_of_shape (hapi : api.Lawful .w64 inv) (nd : Ndarray D T.Val)
    (array : ArrayView D T.Val) {s : Slot τ} (hu : s.Usable inv)
    (hshape : (LVArray.dimSizes D (s.world.addr s.handle) s.world).Shape array.dim) :
    copyFromNdarray (.ok api) nd array s = (.ok (), ⟨s.handle,
      LVArray.copyElements D T (s.world.addr s.handle) (nd.iter array) s.world⟩) := by
  rw [copyFromNdarray, Exec.bind_of_ok (ownDim_of_shape hapi hu hshape),
    if_neg (not_not.mpr rfl)]
  exact copyStage_run hapi hu (nd.iter array)

section Differs

variable {own_dim : List Nat} {s s₁ : Slot τ} {dims : LVArrayDims D}

/-- `copy_from_ndarray` of a shape that is no header. -/
theorem copyFromNdarray_of_tryFrom (hapi : api.Lawful .w64 inv) (nd : Ndarray D T.Val)
    (hu : s.Usable inv) (hown : (LVArray.dimSizes D (s.world.addr s.handle) s.world).Shape own_dim)
    (hne : array.dim ≠ own_dim) {e : LVInteropError}
    (htry : LVArrayDims.tryFrom D array.dim = .error e) :
    copyFromNdarray (.ok api) nd array s = (.err e, s) := by
  rw [copyFromNdarray, Exec.bind_of_ok (ownDim_of_shape hapi hu hown), if_pos hne, htry]
  rfl

/-- `copy_from_ndarray` of another shape: what `resize_array` answers decides. -/
theorem copyFromNdarray_of_resize (hapi : api.Lawful .w64 inv) (nd : Ndarray D T.Val)
    (hu : s.Usable inv) (hown : (LVArray.dimSizes D (s.world.addr s.handle) s.world).Shape own_dim)
    (hne : array.dim ≠ own_dim) (hdims : dims.Shape array.dim) :
    (∀ e, resizeArray (.ok api) .w64 D T dims s = (.err e, s₁) →
      copyFromNdarray (.ok api) nd array s = (.err e, s₁)) ∧
    (resizeArray (.ok api) .w64 D T dims s = (.ok (), s₁) → s₁.Usable inv →
      copyFromNdarray (.ok api) nd array s = (.ok (), ⟨s₁.handle,
        LVArray.copyElements D T (s₁.world.addr s₁.handle) (nd.iter array) s₁.world⟩)) := by
  have hrest : copyFromNdarray (.ok api) nd array s =
      (resizeArray (.ok api) .w64 D T dims >>= fun _ => Slot.onWorld fun self => do
        let lv_array ← Exec.tryRead self.asRefMut
        Exec.modify (LVArray.copyElements D T lv_array.addr (nd.iter array))) s := by
    rw [copyFromNdarray, Exec.bind_of_ok (ownDim_of_shape hapi hu hown), if_pos hne,
      LVArrayDims.tryFrom_eq_ok_iff.mpr hdims]
    rfl
  constructor
  · intro e hresize
    rw [hrest, Exec.bind_of_err hresize]
  · intro hresize hu₁
    rw [hrest, Exec.bind_of_ok hresize]
    exact copyStage_run hapi hu₁ (nd.iter array)

end Differs

/-- **`copy_from_ndarray` on a usable handle**: a panic when the stored
dimensions are no shape, an error that changes nothing, or the elements are
copied behind a header that says what the view's shape says. -/
theorem copyFromNdarray_cases (hapi : api.Lawful .w64 inv) (nd : Ndarray D T.Val)
    (array : ArrayView D T.Val) {s : Slot τ} (hu : s.Usable inv) :
    ((∀ dim, ¬ (LVArray.dimSizes D (s.world.addr s.handle) s.world).Shape dim) ∧
      copyFromNdarray (.ok api) nd array s = (.panic, s)) ∨
    ∃ s₁, s.Confined inv s₁ ∧
      ((s.world.Same s₁.world ∧ ∃ e, copyFromNdarray (.ok api) nd array s = (.err e, s₁)) ∨
        ((LVArray.dimSizes D (s₁.world.addr s₁.handle) s₁.world).Shape array.dim ∧
          (s₁ = s ∨ ∃ dims, resizeArray (.ok api) .w64 D T dims s = (.ok (), s₁)) ∧
          copyFromNdarray (.ok api) nd array s = (.ok (), ⟨s₁.handle,
            LVArray.copyElements D T (s₁.world.addr s₁.handle) (nd.iter array) s₁.world⟩))) := by
  by_cases hshape : ∃ dim, (LVArray.dimSizes D (s.world.addr s.handle) s.world).Shape dim
  · obtain ⟨own_dim, hown⟩ := hshape
    refine .inr ?_
    by_cases heq : array.dim = own_dim
    · rw [← heq] at hown
      exact ⟨s, hu.confined_self,
        .inr ⟨hown, .inl rfl, copyFromNdarray_of_shape hapi nd array hu hown⟩⟩
    · cases htry : LVArrayDims.tryFrom D array.dim with
      | error e =>
          exact ⟨s, hu.confined_self,
            .inl ⟨.refl _, e, copyFromNdarray_of_tryFrom hapi nd hu hown heq htry⟩⟩
      | ok dims =>
          have hdims : dims.Shape array.dim := LVArrayDims.tryFrom_eq_ok_iff.mp htry
          obtain ⟨s₁, hc, ⟨hsame, e, hrun⟩ | ⟨hrun, hstored⟩⟩ := resizeArray_stores hapi T dims hu
          · have hcopy := (copyFromNdarray_of_resize hapi nd hu hown heq hdims).1 e hrun
            exact ⟨s₁, hc, .inl ⟨hsame, e, hcopy⟩⟩
          · have hcopy := (copyFromNdarray_of_resize hapi nd hu hown heq hdims).2 hrun hc.usable
            rw [← hstored] at hdims
            exact ⟨s₁, hc, .inr ⟨hdims, .inr ⟨dims, hrun⟩, hcopy⟩⟩
  · have hno := not_exists.mp hshape
    exact .inl ⟨hno, copyFromNdarray_of_not_shape hapi nd array hu hno⟩

/-- `copy_from_ndarray` of a shape that has a header succeeds where the array
has that shape, or the manager makes room for its elements. -/
theorem copyFromNdarray_eq_ok (hapi : api.Lawful .w64 inv) (nd : Ndarray D T.Val)
    (array : ArrayView D T.Val) {s : Slot τ} (hu : s.Usable inv)
    (hdims : ∀ d ∈ (LVArray.dimSizes D (s.world.addr s.handle) s.world).val, 0 ≤ d.toInt)
    (hlt : ∀ n ∈ array.dim, n < 2 ^ 31)
    (hroom : (LVArray.dimSizes D (s.world.addr s.handle) s.world).Shape array.dim ∨
      (numericArrayResize D T api array.dim.prod s).1 = .SUCCESS) :
    (copyFromNdarray (.ok api) nd array s).1 = .ok () := by
  obtain ⟨own_dim, hown⟩ := LVArrayDims.exists_shape hdims
  by_cases hstored : (LVArray.dimSizes D (s.world.addr s.handle) s.world).Shape array.dim
  · rw [copyFromNdarray_of_shape hapi nd array hu hstored]
  · have hne : array.dim ≠ own_dim := fun heq => hstored (heq ▸ hown)
    obtain ⟨dims, hshape⟩ := LVArrayDims.exists_header array.length_dim hlt
    have hgranted := hroom.resolve_left hstored
    rw [← hshape.elementCount array.shapeOk] at hgranted
    have hok := (resizeArray_ok_iff hapi T dims hu).mpr (.inr hgranted)
    obtain ⟨s₁, hc, ⟨-, e, hrun⟩ | ⟨hrun, -⟩⟩ := resizeArray_stores hapi T dims hu
    · rw [hrun] at hok
      cases hok
    · rw [(copyFromNdarray_of_resize hapi nd hu hown hne hshape).2 hrun hc.usable]

/-- `copy_from_ndarray` keeps to the block, and keeps header and allocation
together. -/
theorem copyFromNdarray_effect (hapi : api.Lawful .w64 inv) (nd : Ndarray D T.Val)
    (array : ArrayView D T.Val) {s : Slot τ} (hu : s.Usable inv)
    (hf : LVArray.Fits .w64 D T s.world s.handle) :
    s.Effect inv (copyFromNdarray (.ok api) nd array s) ∧
      LVArray.Fits .w64 D T (copyFromNdarray (.ok api) nd array s).2.world s.handle := by
  obtain ⟨-, hrun⟩ | ⟨s₁, hc, ⟨hsame, e, hrun⟩ | ⟨-, hstage, hrun⟩⟩ :=
    copyFromNdarray_cases hapi nd array hu
  · rw [hrun]
    exact ⟨.same hu.inv rfl (.refl _), hf⟩
  · rw [hrun]
    exact ⟨.same hc.inv hc.handle hsame, hf.of_block (hsame s.handle).block⟩
  · -- the header that the loop goes by is the one that came with the room
    have hf₁ : LVArray.Fits .w64 D T s₁.world s₁.handle := by
      obtain rfl | ⟨dims, hresize⟩ := hstage
      · exact hf
      · exact resizeArray_fits hapi dims hu hf hresize
    have hu₁ := hc.usable
    have hothers := hf₁.sameBut_copyElements (hapi.apart hu₁.inv) (nd.iter array)
    have hcopy : s₁.Confined inv ⟨s₁.handle,
        LVArray.copyElements D T (s₁.world.addr s₁.handle) (nd.iter array) s₁.world⟩ :=
      ⟨hapi.inv_mem _ hu₁.inv, rfl, hu₁.live, hu₁.addr, hothers⟩
    rw [hrun]
    refine ⟨.confined rfl hu.live (hc.trans hcopy), ?_⟩
    rw [← hc.handle]
    exact hf₁.write_of_le (LVArray.le_elementPtr _ _)

end LVArrayHandle

/-! ## the copy is the view -/

/-- What copying `array` into the array of `s` promises. -/
structure LVArrayHandle.CopiesView (api : MemoryApi τ) (nd : Ndarray D T.Val)
    (array : ArrayView D T.Val) (s : Slot τ) (r : Outcome LVInteropError Unit × Slot τ) :
    Prop where
  handle : r.2.handle = s.handle
  dims : r.1 = .ok () →
    (LVArray.dimSizes D (r.2.world.addr s.handle) r.2.world).Shape array.dim
  count : r.1 = .ok () →
    LVArray.elementCount .w64 D (r.2.world.addr s.handle) r.2.world = array.dim.prod
  view : r.1 = .ok () → ∃ view,
    LVArray.ndarrayView nd (r.2.world.addr s.handle) r.2.world = (.ok view, r.2.world) ∧
      view.dim = array.dim ∧ ∀ ix, IsIndex array.dim ix → view.get ix = array.get ix
  slice : r.1 = .ok () → ∀ (k : Nat) (ix : List Nat), (indices array.dim)[k]? = some ix →
    (LVArray.dataAsSlice .w64 D T (r.2.world.addr s.handle) r.2.world)[k]? = some (array.get ix)
  large : (∃ n ∈ array.dim, 2 ^ 31 ≤ n) → ∃ e, r.1 = .err e
  succeeds : (∀ n ∈ array.dim, n < 2 ^ 31) →
    (LVArray.dimSizes D (s.world.addr s.handle) s.world).Shape array.dim ∨
      (numericArrayResize D T api array.dim.prod s).1 = .SUCCESS → r.1 = .ok ()

/-- The view of an array whose header has the shape and whose slice has the
elements of `array`, in its own order. -/
theorem LVArray.ndarrayView_eq {nd : Ndarray D T.Val} (hnd : nd.Lawful)
    {array : ArrayView D T.Val} {self : Nat} {w : World τ}
    (hshape : (dimSizes D self w).Shape array.dim)
    (hdata : dataAsSlice .w64 D T self w = nd.iter array) :
    ∃ view, ndarrayView nd self w = (.ok view, w) ∧ view.dim = array.dim ∧
      ∀ ix, IsIndex array.dim ix → view.get ix = array.get ix := by
  have hdim : ndarrayDim D self w = (.ok array.dim, w) :=
    LVArrayDims.intoUsizeArray_run_iff.mpr hshape
  have hlen : array.dim.prod ≤ (dataAsSlice .w64 D T self w).length := by
    rw [hdata, hnd.iter, List.length_map, length_indices]
  obtain ⟨view, hview, hvdim, hget⟩ :=
    hnd.fromShape array.dim _ array.length_dim array.shapeOk hlen
  refine ⟨view, ?_, hvdim, fun ix hix => ?_⟩
  · rw [ndarrayView, Exec.bind_of_ok hdim, Exec.read_bind_run, hview]
    rfl
  · have h := hget ix hix
    rw [hdata, hnd.iter, List.getElem?_map, getElem?_indices hix, Option.map_some] at h
    exact (Option.some.inj h).symm

/-- **`copy_from_ndarray` then `ndarray_view` is the identity.** -/
theorem LVArrayHandle.copyFromNdarray_copiesView {inv : World τ → Prop} {api : MemoryApi τ}
    (hapi : api.Lawful .w64 inv) {nd : Ndarray D T.Val} (hnd : nd.Lawful)
    (array : ArrayView D T.Val) {s : Slot τ} (hu : s.Usable inv)
    (hdims : ∀ d ∈ (LVArray.dimSizes D (s.world.addr s.handle) s.world).val, 0 ≤ d.toInt) :
    CopiesView api nd array s (copyFromNdarray (.ok api) nd array s) := by
  have hsucceeds := copyFromNdarray_eq_ok hapi nd array hu hdims
  obtain ⟨hno, -⟩ | ⟨s₁, hc, ⟨-, e, hrun⟩ | ⟨hshape, -, hrun⟩⟩ :=
    copyFromNdarray_cases hapi nd array hu
  · obtain ⟨dim, hdim⟩ := LVArrayDims.exists_shape hdims
    exact absurd hdim (hno dim)
  · rw [hrun] at hsucceeds ⊢
    exact ⟨hc.handle, nofun, nofun, nofun, nofun, fun _ => ⟨e, rfl⟩, hsucceeds⟩
  · rw [hc.handle] at hshape hrun
    have hcount := hshape.elementCount array.shapeOk
    have hlen : (nd.iter array).length =
        LVArray.elementCount .w64 D (s₁.world.addr s.handle) s₁.world := by
      rw [hnd.iter, List.length_map, length_indices, ← hcount]
      rfl
    have hdata := LVArray.dataAsSlice_copyElements hlen
    have hdims' := LVArray.dimSizes_copyElements (D := D) (s₁.world.addr s.handle)
      (nd.iter array) s₁.world
    have hshape' := hshape
    rw [← hdims'] at hshape'
    rw [hrun]
    refine ⟨rfl, fun _ => hshape', fun _ => ?_, fun _ => ?_, fun _ k ix hk => ?_, ?_,
      fun _ _ => rfl⟩
    · exact hshape'.elementCount array.shapeOk
    · exact LVArray.ndarrayView_eq hnd hshape' hdata
    · have hix : (nd.iter array)[k]? = some (array.get ix) := by
        rw [hnd.iter, List.getElem?_map, hk, Option.map_some]
      exact (congrArg (fun l => l[k]?) hdata).trans hix
    · rintro ⟨n, hn, hlarge⟩
      have hmem := List.mem_map_of_mem (f := fun n : Nat => (n : Int)) hn
      rw [← hshape] at hmem
      obtain ⟨d, -, hd⟩ := List.mem_map.mp hmem
      have := d.toInt_lt
      omega

/-! ## an implementation -/

/-- Views of contiguous slices; `dflt` is what lies outside of them. -/
def Ndarray.contiguous (D : Nat) (dflt : α) : Ndarray D α where
  iter v := (indices v.dim).map v.get
  fromShape dim data :=
    if h : dim.length = D ∧ ShapeOk dim ∧ dim.prod ≤ data.length then
      some ⟨dim, (strides dim).map Nat.cast, 0, fun i => data.getD i.toNat dflt, h.1, h.2.1⟩
    else none

theorem Ndarray.contiguous_lawful (D : Nat) (dflt : α) : (contiguous D dflt).Lawful where
  iter _ := rfl
  fromShape dim data hD hok hlen := by
    refine ⟨_, dif_pos ⟨hD, hok, hlen⟩, rfl, fun ix hix => ?_⟩
    have hlt := Nat.lt_of_lt_of_le (flatIndex_lt hix) hlen
    simp only [ArrayView.get, sum_strides hix, Int.zero_add, Int.toNat_natCast]
    rw [List.getD_eq_getElem?_getD, List.getElem?_eq_getElem hlt, Option.getD_some]

/-- Two bytes in reverse order: a view with a negative stride. -/
def reversedView : ArrayView 1 NumericArrayResizable.u8.Val where
  dim := [2]
  strides := [-1]
  ptr := 1
  storage i := ⟨[if i = 0 then 10 else 20], rfl⟩
  length_dim := rfl
  shapeOk := by decide

/-- An array of no elements is made one of two. -/
theorem copyFromNdarray_copiesView_bump :
    LVArrayHandle.CopiesView (Bump.api .w64) (Ndarray.contiguous 1 ⟨[0], rfl⟩) reversedView
      ⟨⟨1⟩, Bump.withArray .w64 Bump.noElements []⟩
      (LVArrayHandle.copyFromNdarray (.ok (Bump.api .w64)) (Ndarray.contiguous 1 ⟨[0], rfl⟩)
        reversedView ⟨⟨1⟩, Bump.withArray .w64 Bump.noElements []⟩) ∧
    (LVArrayHandle.copyFromNdarray (.ok (Bump.api .w64)) (Ndarray.contiguous 1 ⟨[0], rfl⟩)
      reversedView ⟨⟨1⟩, Bump.withArray .w64 Bump.noElements []⟩).1 = .ok () := by
  have hvalid : (LVArray.dimSizes 1 4096 (Bump.withArray .w64 Bump.noElements [])).Valid .w64 := by
    decide
  have hcopies := LVArrayHandle.copyFromNdarray_copiesView (Bump.lawful .w64)
    (Ndarray.contiguous_lawful 1 ⟨[0], rfl⟩) reversedView (Bump.withArray_usable _ _) hvalid.nonneg
  exact ⟨hcopies, hcopies.succeeds (by decide) (.inr (by decide))⟩

end LvInterop
