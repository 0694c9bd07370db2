import LvInterop.Ndarray

/-!
# LvInterop.Panics

Where the array operations panic although they return a `Result`.

Both look at the stored dimensions through `Deref`, which panics on a null
handle and on a null master pointer; `copy_from_ndarray` also converts them to
a shape, which panics on a negative one.  On 32-bit targets `resize_array` does
not look, and a null handle gets the array that `NumericArrayResize` makes
(`graceful_iff`).
-/

namespace LvInterop

open Lib

variable {τ : Type} {width : PtrWidth} {inv : World τ → Prop} {api : MemoryApi τ}
variable {D : Nat} {T : NumericArrayResizable}

/-- An array handle as LabVIEW passes it: null, to a null pointer, or to an
array. -/
def Slot.Passed (inv : World τ → Prop) (s : Slot τ) : Prop :=
  inv s.world ∧ (s.handle = .null ∨ s.world.addr s.handle = 0 ∨ s.Usable inv)

/-- There is no array behind the handle. -/
def Slot.NoArray (s : Slot τ) : Prop := s.handle = .null ∨ s.world.addr s.handle = 0

/-- A handle is dereferenced exactly where there is an array. -/
theorem Slot.asRef_of_noArray {s : Slot τ} (h : s.NoArray) :
    s.handle.asRef s.world = .error (.internalError .invalidHandle) := by
  unfold UHandle.asRef
  split_ifs with hnull haddr
  · rfl
  · rfl
  · obtain h | h := h
    · exact absurd h hnull
    · exact absurd h haddr

theorem Slot.deref_of_noArray {s : Slot τ} (h : s.NoArray) :
    (s.handle.deref : Exec (World τ) LVInteropError FatPtr) s.world = (.panic, s.world) :=
  Exec.unwrapRead_of_error (Slot.asRef_of_noArray h)

theorem Slot.Usable.not_noArray (hapi : api.Lawful width inv) {s : Slot τ} (hu : s.Usable inv) :
    ¬ s.NoArray := by
  rintro (h | h)
  · exact UHandle.ne_null_of_live hapi hu.inv hu.live h
  · exact hu.addr h

/-- The way of an operation to end: with a `Result`, and without an array to
work on with `InvalidHandle` or with a new array. -/
structure LVArrayHandle.Graceful (inv : World τ → Prop) (width : PtrWidth) (D : Nat)
    (T : NumericArrayResizable) (s : Slot τ) (r : Outcome LVInteropError Unit × Slot τ) : Prop where
  noPanic : r.1 ≠ .panic
  noArray : s.NoArray → r.1 = .err (.internalError .invalidHandle) ∨
    r.1 = .ok () ∧ r.2.Usable inv ∧ LVArray.Fits width D T r.2.world r.2.handle ∧
      (s.handle = .null → s.world.live r.2.handle = none)

/-- No status of the manager is reported as an invalid handle. -/
theorem LVStatusCode.toSpecificResult_ne_invalidHandle (s : LVStatusCode) :
    s.toSpecificResult () ≠ .error (.internalError .invalidHandle) := by
  unfold toSpecificResult MgError.tryFrom
  split_ifs with h
  · exact nofun
  · cases MgError.tryFromPrimitive s.code with
    | some e => exact nofun
    | none => exact nofun

namespace LVArrayHandle

/-- On 64-bit targets `resize_array` panics without an array. -/
theorem resizeArray_of_noArray (dims : LVArrayDims D) {s : Slot τ} (h : s.NoArray) :
    resizeArray (.ok api) .w64 D T dims s = (.panic, s) := by
  have href := Slot.asRef_of_noArray h
  obtain ⟨⟨-, array, hr, -⟩, -⟩ | ⟨-, -, hsame⟩ | ⟨-, hsame⟩ := sameDims_cases .w64 dims s
  · cases href.symm.trans hr
  · exact resizeArray_of_panic hsame
  · simp [sameDims, Slot.onWorld, Exec.bind_of_panic (Slot.deref_of_noArray h)] at hsame

/-- On 32-bit targets it leaves a missing array to the manager. -/
theorem resizeArray_graceful_of_noArray (hapi : api.Lawful .w32 inv) (dims : LVArrayDims D)
    {s : Slot τ} (hinv : inv s.world) (hno : s.NoArray) :
    Graceful inv .w32 D T s (resizeArray (.ok api) .w32 D T dims s) ↔
      (numericArrayResize D T api (dims.elementCount .w32) s).1 = .SUCCESS := by
  obtain ⟨⟨hw, -⟩, -⟩ | ⟨hw, -⟩ | ⟨-, st, s₁, hreq, hinv₁, ⟨hst, -⟩ | ⟨rfl, ht, hu₁, hroom, hrun⟩⟩ :=
    resizeArray_cases hapi T dims hinv
  · cases hw
  · cases hw
  · obtain ⟨e, he⟩ := LVStatusCode.toSpecificResult_of_ne hst ()
    have hrun : resizeArray (.ok api) .w32 D T dims s = (.err e, s₁) :=
      resizeArray_of_refused rfl hreq he
    rw [hreq, hrun]
    refine iff_of_false (fun hg => ?_) hst
    rcases hg.noArray hno with herr | ⟨hok, -⟩
    · obtain rfl := Outcome.err.inj herr
      exact st.toSpecificResult_ne_invalidHandle he
    · cases hok
  · rw [hreq, hrun]
    refine iff_of_true ⟨nofun, fun _ => .inr ⟨rfl, ?_, fits_storeDims hroom, fun hnull => ?_⟩⟩ rfl
    · exact ⟨hapi.inv_mem _ hinv₁, hu₁.live, hu₁.addr⟩
    · obtain ⟨-, hfresh⟩ | ⟨hne, -⟩ := ht
      · exact hfresh
      · exact absurd hnull hne

/-- With an array it returns. -/
theorem resizeArray_graceful_of_usable (hapi : api.Lawful width inv) (dims : LVArrayDims D)
    {s : Slot τ} (hu : s.Usable inv) :
    Graceful inv width D T s (resizeArray (.ok api) width D T dims s) := by
  refine ⟨?_, fun hno => absurd hno (hu.not_noArray hapi)⟩
  obtain ⟨s₁, -, ⟨-, e, hrun⟩ | ⟨hrun, -⟩⟩ := resizeArray_stores hapi T dims hu
  · rw [hrun]
    exact nofun
  · rw [hrun]
    exact nofun

/-- `copy_from_ndarray` panics without an array. -/
theorem copyFromNdarray_of_noArray (nd : Ndarray D T.Val) (array : ArrayView D T.Val) {s : Slot τ}
    (h : s.NoArray) : copyFromNdarray (.ok api) nd array s = (.panic, s) := by
  have hown : (Slot.onWorld fun self => do
      let lv_array ← self.deref
      LVArray.ndarrayDim D lv_array.addr : Exec (Slot τ) LVInteropError (List Nat)) s =
        (.panic, s) := by
    simp only [Slot.onWorld, Exec.bind_of_panic (Slot.deref_of_noArray h)]
  rw [copyFromNdarray, Exec.bind_of_panic hown]

/-- With an array it returns where the stored dimensions are a shape. -/
theorem copyFromNdarray_graceful_of_usable (hapi : api.Lawful .w64 inv) (nd : Ndarray D T.Val)
    (array : ArrayView D T.Val) {s : Slot τ} (hu : s.Usable inv) :
    Graceful inv .w64 D T s (copyFromNdarray (.ok api) nd array s) ↔
      ∀ d ∈ (LVArray.dimSizes D (s.world.addr s.handle) s.world).val, 0 ≤ d.toInt := by
  by_cases hdims : ∀ d ∈ (LVArray.dimSizes D (s.world.addr s.handle) s.world).val, 0 ≤ d.toInt
  · refine iff_of_true ⟨?_, fun hno => absurd hno (hu.not_noArray hapi)⟩ hdims
    obtain ⟨hno, -⟩ | ⟨s₁, -, ⟨-, e, hrun⟩ | ⟨-, -, hrun⟩⟩ := copyFromNdarray_cases hapi nd array hu
    · obtain ⟨dim, hdim⟩ := LVArrayDims.exists_shape hdims
      exact absurd hdim (hno dim)
    · rw [hrun]
      exact nofun
    · rw [hrun]
      exact nofun
  · have hno : ∀ dim, ¬ (LVArray.dimSizes D (s.world.addr s.handle) s.world).Shape dim :=
      fun dim hdim => hdims hdim.nonneg
    refine iff_of_false (fun hg => hg.noPanic ?_) hdims
    rw [copyFromNdarray_of_not_shape hapi nd array hu hno]

end LVArrayHandle

/-- **The array operations end well exactly** where there is an array, which
for `copy_from_ndarray` must not have a negative dimension.  On 32-bit targets
`resize_array` also ends well where the manager makes a missing array. -/
theorem graceful_iff (hapi : api.Lawful width inv) {s : Slot τ} (hs : s.Passed inv) :
    (∀ dims : LVArrayDims D, LVArrayHandle.Graceful inv width D T s
        (LVArrayHandle.resizeArray (.ok api) width D T dims s) ↔
      ¬ s.NoArray ∨ width = .w32 ∧
        (LVArrayHandle.numericArrayResize D T api (dims.elementCount width) s).1 = .SUCCESS) ∧
    (width = .w64 → ∀ (nd : Ndarray D T.Val) (array : ArrayView D T.Val),
      LVArrayHandle.Graceful inv width D T s
          (LVArrayHandle.copyFromNdarray (.ok api) nd array s) ↔
        ¬ s.NoArray ∧
          ∀ d ∈ (LVArray.dimSizes D (s.world.addr s.handle) s.world).val, 0 ≤ d.toInt) := by
  by_cases hno : s.NoArray
  · refine ⟨fun dims => ?_, ?_⟩
    · rw [or_iff_right (not_not.mpr hno)]
      cases width with
      | w32 =>
          rw [LVArrayHandle.resizeArray_graceful_of_noArray hapi dims hs.1 hno]
          exact ⟨fun h => ⟨rfl, h⟩, And.right⟩
      | w64 =>
          refine iff_of_false (fun hg => hg.noPanic ?_) (fun h => nomatch h.1)
          rw [LVArrayHandle.resizeArray_of_noArray dims hno]
    · rintro rfl nd array
      refine iff_of_false (fun hg => hg.noPanic ?_) (fun h => h.1 hno)
      rw [LVArrayHandle.copyFromNdarray_of_noArray nd array hno]
  · have hu : s.Usable inv := by
      obtain ⟨-, h | h | h⟩ := hs
      · exact absurd (.inl h) hno
      · exact absurd (.inr h) hno
      · exact h
    refine ⟨fun dims => ?_, ?_⟩
    · exact iff_of_true (LVArrayHandle.resizeArray_graceful_of_usable hapi dims hu) (.inl hno)
    · rintro rfl nd array
      rw [LVArrayHandle.copyFromNdarray_graceful_of_usable hapi nd array hu, and_iff_right hno]

theorem graceful_iff_bump : LVArrayHandle.Graceful Bump.Inv .w64 1 .u8
    ⟨⟨1⟩, Bump.withArray .w64 Bump.noElements []⟩
    (LVArrayHandle.copyFromNdarray (.ok (Bump.api .w64)) (Ndarray.contiguous 1 ⟨[0], rfl⟩)
      reversedView ⟨⟨1⟩, Bump.withArray .w64 Bump.noElements []⟩) := by
  have hu : (⟨⟨1⟩, Bump.withArray .w64 Bump.noElements []⟩ : Slot Bump).Usable Bump.Inv :=
    Bump.withArray_usable _ _
  refine ((graceful_iff (Bump.lawful .w64) ⟨hu.inv, .inr (.inr hu)⟩).2 rfl _ _).mpr ⟨?_, ?_⟩
  · exact hu.not_noArray (Bump.lawful .w64)
  · rw [Bump.dimSizes_withArray]
    exact List.forall_mem_singleton.mpr (by decide)

/-- A null handle takes the caller down. -/
theorem not_graceful : ¬ LVArrayHandle.Graceful Bump.Inv .w64 1 .u8 ⟨.null, Bump.start 0 []⟩
    (LVArrayHandle.resizeArray (.ok (Bump.api .w64)) .w64 1 .u8 ⟨[3], rfl⟩
      ⟨.null, Bump.start 0 []⟩) := by
  intro hg
  refine hg.noPanic ?_
  rw [LVArrayHandle.resizeArray_of_noArray _ (.inl rfl)]

end LvInterop
