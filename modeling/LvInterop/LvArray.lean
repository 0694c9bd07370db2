import LvInterop.Dims
import LvInterop.Handle

/-!
# LvInterop.LvArray

LabVIEW arrays (`types/array/mod.rs`, `types/array/memory.rs`): the dimension
header, padding on 64-bit targets, and the elements in row-major order.

How many elements there are is read from the header on every access; how much
room there is was fixed by the last `NumericArrayResize`.  `Fits` says the two
agree well enough for a slice of the elements to stay inside the block.
-/

namespace LvInterop

open Lib

variable {τ : Type}

/-! ## access -/

/-- The header found in the first bytes of an array. -/
def LVArrayDims.ofBytes (D : Nat) (bs : List UInt8) : LVArrayDims D :=
  ⟨(List.range D).map fun i => i32OfBytes (piece 4 i bs), by simp⟩

/-- The bytes of a header. -/
def LVArrayDims.toBytes (self : LVArrayDims D) : List UInt8 := self.val.flatMap i32ToBytes

namespace LVArray

variable (width : PtrWidth) (D : Nat) (T : NumericArrayResizable)

/-- `LVArray::dimension_sizes`.  A reference to an array is its address here:
no method uses the length that a 64-bit reference carries as well. -/
def dimSizes (self : Nat) (w : World τ) : LVArrayDims D := .ofBytes D (readBytes w.mem self (4 * D))

/-- `LVArray::element_count`. -/
def elementCount (self : Nat) (w : World τ) : Nat := (dimSizes D self w).elementCount width

/-- Where element `index` is stored. -/
def elementPtr (self index : Nat) : Nat := self + dataOffset width D T + T.size * index

/-- `LVArray::get_value_unchecked`. -/
def getValueUnchecked (self index : Nat) (w : World τ) : T.Val :=
  ⟨readBytes w.mem (elementPtr width D T self index) T.size, by simp⟩

/-- `LVArray::set_value_unchecked`. -/
def setValueUnchecked (self index : Nat) (value : T.Val) (w : World τ) : World τ :=
  w.write (elementPtr width D T self index) value.val

/-- `LVArray::data_as_slice`. -/
def dataAsSlice (self : Nat) (w : World τ) : List T.Val :=
  (List.range (elementCount width D self w)).map fun i => getValueUnchecked width D T self i w

end LVArray

namespace LVArrayHandle

variable (memoryApi : Result (MemoryApi τ)) (width : PtrWidth) (D : Nat) (T : NumericArrayResizable)

/-- The comparison with the stored dimensions that `resize_array` starts with
on 64-bit targets. -/
def sameDims (new_dims : LVArrayDims D) : Exec (Slot τ) LVInteropError Bool :=
  match width with
  | .w64 => Slot.onWorld fun self => do
      let array ← self.deref
      Exec.read fun w => decide (new_dims = LVArray.dimSizes D array.addr w)
  | .w32 => pure false

/-- `NumericArrayResize` on the handle variable itself. -/
def numericArrayResize (api : MemoryApi τ) (new_size : Nat) (self : Slot τ) :
    LVStatusCode × Slot τ :=
  let r := api.numericArrayResize T.TYPE_CODE D self.handle new_size self.world
  (r.1.1, ⟨r.1.2, r.2⟩)

/-- The assignment to `self.dim_sizes`. -/
def storeDims (new_dims : LVArrayDims D) : Exec (Slot τ) LVInteropError Unit :=
  Slot.onWorld fun self => do
    let array ← self.deref
    Exec.modify fun w => w.write array.addr new_dims.toBytes

/-- `LVArrayHandle::resize_array`. -/
def resizeArray (new_dims : LVArrayDims D) : Exec (Slot τ) LVInteropError Unit := do
  let same ← sameDims width D new_dims
  if same then
    pure ()
  else do
    let new_size := new_dims.elementCount width
    let api ← Exec.ofExcept memoryApi
    let mg_err ← Exec.call (numericArrayResize D T api new_size)
    let result := mg_err.toSpecificResult ()
    if result.isOk then
      storeDims D new_dims
    Exec.ofExcept result

/-- `set_value_unchecked` through a handle, which derefs first. -/
def setValueUnchecked (index : Nat) (value : T.Val) : Exec (Slot τ) LVInteropError Unit :=
  Slot.onWorld fun self => do
    let array ← self.deref
    Exec.modify (LVArray.setValueUnchecked width D T array.addr index value)

end LVArrayHandle

/-- `LVArrayOwned::new_empty`. -/
def LVArrayOwned.newEmpty (memoryApi : Result (MemoryApi τ)) (width : PtrWidth) (D : Nat)
    (T : NumericArrayResizable) : Exec (World τ) LVInteropError UHandle :=
  OwnedUHandle.newUnsized memoryApi (LVArrayHandle.resizeArray memoryApi width D T (.newEmpty D))

/-! ## headers in memory -/

@[simp] theorem LVArrayDims.length_toBytes (dims : LVArrayDims D) : dims.toBytes.length = 4 * D := by
  rw [toBytes, length_flatMap_of_length length_i32ToBytes, dims.length_val]

@[simp] theorem LVArrayDims.ofBytes_toBytes (dims : LVArrayDims D) : ofBytes D dims.toBytes = dims := by
  apply LVArrayDims.ext
  apply List.ext_getElem (by simp [ofBytes, dims.length_val])
  intro i _ hi
  have hpiece := piece_flatMap length_i32ToBytes dims.val i hi
  simp only [ofBytes, toBytes, List.getElem_map, List.getElem_range, hpiece,
    i32OfBytes_i32ToBytes]

namespace LVArray

variable {width : PtrWidth} {D : Nat} {T : NumericArrayResizable}

/-- The dimensions stored by a write of a header. -/
theorem dimSizes_write (w : World τ) (self : Nat) (dims : LVArrayDims D) :
    dimSizes D self (w.write self dims.toBytes) = dims := by
  have hread := readBytes_writeBytes w.mem self dims.toBytes
  rw [LVArrayDims.length_toBytes] at hread
  rw [dimSizes, World.write_mem, hread, LVArrayDims.ofBytes_toBytes]

/-- **The element count is exact**: of dimensions, of the same dimensions in
another order, and of an array in memory. -/
theorem elementCount_exact (τ : Type) (width : PtrWidth) (D : Nat) :
    (∀ dims : LVArrayDims D,
      (dims.elementCount width : Int) = if dims.Valid width then dims.product else 0) ∧
    (∀ dims dims' : LVArrayDims D, dims.val.Perm dims'.val →
      dims.elementCount width = dims'.elementCount width) ∧
    ∀ (self : Nat) (w : World τ), (elementCount width D self w : Int) =
      if (dimSizes D self w).Valid width then (dimSizes D self w).product else 0 :=
  ⟨LVArrayDims.elementCount_eq_ite width, fun _ _ => LVArrayDims.elementCount_perm,
    fun self w => LVArrayDims.elementCount_eq_ite width (dimSizes D self w)⟩

/-- A write behind the header does not change it. -/
theorem dimSizes_write_of_le {w : World τ} {self a : Nat} {bs : List UInt8}
    (ha : self + 4 * D ≤ a) : dimSizes D self (w.write a bs) = dimSizes D self w := by
  rw [dimSizes, dimSizes, World.write_mem, readBytes_writeBytes_of_apart (apart_of_le ha).symm]

/-- Elements lie behind the header. -/
theorem le_elementPtr (self index : Nat) : self + 4 * D ≤ elementPtr width D T self index := by
  have := header_le_dataOffset width D T
  simp only [elementPtr]
  omega

/-! ## the header and the allocation -/

/-- The header of `h` lies in its block and counts no more elements than the
block has room for. -/
def Fits (width : PtrWidth) (D : Nat) (T : NumericArrayResizable) (w : World τ) (h : UHandle) :
    Prop :=
  ∃ n, w.live h = some n ∧ 4 * D ≤ n ∧
    elementCount width D (w.addr h) w ≤ allocatedElements width D T n

/-- A header inside a block is found in each copy of the block. -/
theorem dimSizes_of_block {w w' : World τ} {h h' : UHandle} {n : Nat} (hb : w'.block h' = w.block h)
    (hn : w.live h = some n) (hD : 4 * D ≤ n) :
    dimSizes D (w'.addr h') w' = dimSizes D (w.addr h) w := by
  obtain ⟨-, hbytes⟩ := World.live_of_block_eq hb hn
  rw [dimSizes, dimSizes, ← take_readBytes w'.mem hD, hbytes, take_readBytes w.mem hD]

theorem Fits.of_block {w w' : World τ} {h h' : UHandle} (hf : Fits width D T w h)
    (hb : w'.block h' = w.block h) : Fits width D T w' h' := by
  obtain ⟨n, hn, hD, hcount⟩ := hf
  refine ⟨n, (World.live_of_block_eq hb hn).1, hD, ?_⟩
  rw [elementCount, dimSizes_of_block hb hn hD]
  exact hcount

/-- A write behind the header leaves header and allocation as they were. -/
theorem Fits.write_of_le {w : World τ} {h : UHandle} (hf : Fits width D T w h) {a : Nat}
    {bs : List UInt8} (ha : w.addr h + 4 * D ≤ a) : Fits width D T (w.write a bs) h := by
  obtain ⟨n, hn, hD, hcount⟩ := hf
  refine ⟨n, hn, hD, ?_⟩
  rw [World.write_addr, elementCount, dimSizes_write_of_le ha]
  exact hcount

/-- **The slices stay inside the block**: an element below the element count
ends before the block does. -/
theorem Fits.end_le {w : World τ} {h : UHandle} (hf : Fits width D T w h) {i : Nat}
    (hi : i < elementCount width D (w.addr h) w) : ∃ n, w.live h = some n ∧
      elementPtr width D T (w.addr h) i + T.size ≤ w.addr h + n := by
  obtain ⟨n, hn, -, hcount⟩ := hf
  have hend := end_le_of_allocated (Nat.lt_of_lt_of_le hi hcount)
  refine ⟨n, hn, ?_⟩
  rw [Nat.mul_succ] at hend
  simp only [elementPtr]
  omega

/-- The elements are found in each copy of the block. -/
theorem Fits.dataAsSlice_of_block {w w' : World τ} {h h' : UHandle} (hf : Fits width D T w h)
    (hb : w'.block h' = w.block h) :
    dataAsSlice width D T (w'.addr h') w' = dataAsSlice width D T (w.addr h) w := by
  obtain ⟨n, hn, hD, hcount⟩ := hf
  obtain ⟨-, hbytes⟩ := World.live_of_block_eq hb hn
  have hdims := dimSizes_of_block hb hn hD
  simp only [dataAsSlice, elementCount, hdims]
  refine List.map_congr_left fun i hi => Subtype.ext ?_
  have hend := end_le_of_allocated (Nat.lt_of_lt_of_le (List.mem_range.mp hi) hcount)
  rw [Nat.mul_succ, ← Nat.add_assoc] at hend
  have hsub := readBytes_sub hbytes hend
  rwa [← Nat.add_assoc, ← Nat.add_assoc] at hsub

/-- Storing elements is confined to the block of the array. -/
theorem Fits.sameBut_write {w : World τ} (hw : w.BlocksApart) {h : UHandle}
    (hf : Fits width D T w h) {i : Nat} (hi : i < elementCount width D (w.addr h) w)
    {a : Nat} (bs : List UInt8) (ha : elementPtr width D T (w.addr h) 0 ≤ a)
    (hend : a + bs.length ≤ elementPtr width D T (w.addr h) i + T.size) :
    w.SameBut (w.write a bs) h := by
  obtain ⟨n, hn, hle⟩ := hf.end_le hi
  have hlo : w.addr h + 4 * D ≤ elementPtr width D T (w.addr h) 0 := le_elementPtr _ _
  exact World.sameBut_write hw hn (by omega) (by omega)

end LVArray

/-! ## storing an element -/

namespace LVArrayHandle

variable {width : PtrWidth} {D : Nat} {T : NumericArrayResizable}
variable {inv : World τ → Prop} {api : MemoryApi τ}

theorem setValueUnchecked_run (hapi : api.Lawful width inv) {s : Slot τ} (hu : s.Usable inv)
    (i : Nat) (v : T.Val) : setValueUnchecked width D T i v s =
      (.ok (), ⟨s.handle, LVArray.setValueUnchecked width D T (s.world.addr s.handle) i v s.world⟩) := by
  have hd : (s.handle.deref : Exec (World τ) LVInteropError FatPtr) s.world =
      (.ok ⟨s.world.addr s.handle, (s.world.master s.handle).next⟩, s.world) :=
    Exec.unwrapRead_of_ok (UHandle.asRef_of_usable hapi hu)
  simp only [setValueUnchecked, Slot.onWorld, Exec.bind_of_ok hd, Exec.modify_run]

/-- A store below the element count keeps to the block, and keeps the header. -/
theorem setValueUnchecked_effect (hapi : api.Lawful width inv) {s : Slot τ} (hu : s.Usable inv)
    (hf : LVArray.Fits width D T s.world s.handle) {i : Nat}
    (hi : i < LVArray.elementCount width D (s.world.addr s.handle) s.world) (v : T.Val) :
    s.Effect inv (setValueUnchecked width D T i v s) ∧
      LVArray.Fits width D T (setValueUnchecked width D T i v s).2.world s.handle := by
  rw [setValueUnchecked_run hapi hu]
  have hlo : LVArray.elementPtr width D T (s.world.addr s.handle) 0 ≤
      LVArray.elementPtr width D T (s.world.addr s.handle) i := by
    simp [LVArray.elementPtr]
  have hothers := hf.sameBut_write (hapi.apart hu.inv) hi v.val hlo
    (Nat.le_of_eq (congrArg _ v.property))
  exact ⟨.confined rfl hu.live ⟨hapi.inv_mem _ hu.inv, rfl, hu.live, hu.addr, hothers⟩,
    hf.write_of_le (LVArray.le_elementPtr _ _)⟩

end LVArrayHandle

end LvInterop
