import LvInterop.Elements
import LvInterop.Ndarray
import Mathlib.Data.List.TakeWhile
import Mathlib.Logic.Function.Basic

/-!
# LvInterop.Views

Storing through mutable `ndarray` views (`types/array/ndarray.rs`, 64-bit
only).

What an array is for is a function of multi-indices (`Shows`): a view reads it
and an assignment through a mutable view updates it at one index
(`Shows.setValueUnchecked`).  Any assignments are that many updates
(`Borrows.assignEach_run`), and resizing an array and assigning each element of a
view, in any order, is what `copy_from_ndarray` does (`assignEach_agreesWithCopy`).

As in `Ndarray`, the functions of `ndarray` are a parameter (`NdarrayMut`),
with what it documents of them (`NdarrayMut.Lawful`).
-/

namespace LvInterop

open Lib

variable {τ : Type} {D : Nat} {T : NumericArrayResizable}

instance (dims ix : List Nat) : Decidable (IsIndex dims ix) :=
  inferInstanceAs (Decidable (List.Forall₂ _ _ _))

/-- `NdIndex`: a number for each axis. -/
abbrev NdIndex (D : Nat) : Type := { ix : List Nat // ix.length = D }

/-- The functions of `ndarray` that make and index mutable views.  A view
borrows a slice, which is given by its address and its length; a `&mut T` is
the address of an element. -/
structure NdarrayMut (D : Nat) (T : NumericArrayResizable) where
  /-- `ArrayViewMut` -/
  ArrayViewMut : Type
  /-- `ArrayViewMut::from_shape`; `none` is a `ShapeError` -/
  fromShape : List Nat → Nat → Nat → Option ArrayViewMut
  /-- `ArrayViewMut::index_mut`; `none` is a panic -/
  indexMut : ArrayViewMut → NdIndex D → Option Nat

/-- What `ndarray` documents: a shape within bounds that needs no more than the
slice has is a row-major view of it, and indexing panics outside of the shape. -/
def NdarrayMut.Lawful (nd : NdarrayMut D T) : Prop :=
  ∀ dim data len, dim.length = D → ShapeOk dim → dim.prod ≤ len →
    ∃ v, nd.fromShape dim data len = some v ∧ ∀ ix : NdIndex D, nd.indexMut v ix =
      if IsIndex dim ix.val then some (data + T.size * flatIndex dim ix.val) else none

/-- `view[ix] = value`: a store through the reference that `index_mut` returns. -/
def NdarrayMut.assign (nd : NdarrayMut D T) (view : nd.ArrayViewMut) (ix : NdIndex D)
    (value : T.Val) : Exec (World τ) LVInteropError Unit :=
  match nd.indexMut view ix with
  | some element => Exec.modify fun w => w.write element value.val
  | none => Exec.unwind

/-- `for (ix, value) in assignments { view[ix] = value }`. -/
def NdarrayMut.assignEach (nd : NdarrayMut D T) (view : nd.ArrayViewMut) :
    List (NdIndex D × T.Val) → Exec (World τ) LVInteropError Unit
  | [] => pure ()
  | (ix, value) :: assignments => do
      nd.assign view ix value
      nd.assignEach view assignments

/-- `LVArray::ndarray_view_mut`. -/
def LVArray.ndarrayViewMut (nd : NdarrayMut D T) (self : Nat) :
    Exec (World τ) LVInteropError nd.ArrayViewMut := do
  let dim_sizes ← ndarrayDim D self
  let len ← Exec.read (elementCount .w64 D self)
  match nd.fromShape dim_sizes (elementPtr .w64 D T self 0) len with
  | some view => pure view
  | none => Exec.unwind

/-- A caller that takes a mutable view of its array and assigns through it. -/
def LVArrayHandle.assignEach (nd : NdarrayMut D T) (assignments : List (NdIndex D × T.Val)) :
    Exec (Slot τ) LVInteropError Unit :=
  Slot.onWorld fun self => do
    let lv_array ← self.deref
    let view ← LVArray.ndarrayViewMut nd lv_array.addr
    nd.assignEach view assignments

/-- A caller that gives its array a shape first, as `copy_from_ndarray` does. -/
def LVArrayHandle.resizeAssignEach (memoryApi : Result (MemoryApi τ)) (nd : NdarrayMut D T)
    (dim : List Nat) (assignments : List (NdIndex D × T.Val)) :
    Exec (Slot τ) LVInteropError Unit := do
  let new_dims ← Exec.ofExcept (LVArrayDims.tryFrom D dim)
  resizeArray memoryApi .w64 D T new_dims
  assignEach nd assignments

/-! ## the bytes of a slice -/

/-- The worlds differ in the `n` bytes from `a` at most. -/
def World.SameOutside (w w' : World τ) (a n : Nat) : Prop :=
  ∃ m, w' = { w with mem := m } ∧ ∀ i, i < a ∨ a + n ≤ i → m i = w.mem i

namespace World

theorem SameOutside.refl (w : World τ) (a n : Nat) : w.SameOutside w a n :=
  ⟨w.mem, rfl, fun _ _ => rfl⟩

theorem SameOutside.trans {w₁ w₂ w₃ : World τ} {a n : Nat} (h₁ : w₁.SameOutside w₂ a n)
    (h₂ : w₂.SameOutside w₃ a n) : w₁.SameOutside w₃ a n := by
  obtain ⟨m₁, rfl, hm₁⟩ := h₁
  obtain ⟨m₂, rfl, hm₂⟩ := h₂
  exact ⟨m₂, rfl, fun i hi => (hm₂ i hi).trans (hm₁ i hi)⟩

/-- A store inside the range. -/
theorem sameOutside_write (w : World τ) {a n b : Nat} {bs : List UInt8} (hlo : a ≤ b)
    (hhi : b + bs.length ≤ a + n) : w.SameOutside (w.write b bs) a n :=
  ⟨_, rfl, fun _ hi => writeBytes_apply_of_out (by omega)⟩

end World

namespace LVArray

/-- Stores into the slice are confined to the block of the array. -/
theorem Fits.sameBut_of_sameOutside {w w' : World τ} (hw : w.BlocksApart) {h : UHandle}
    (hf : Fits .w64 D T w h) (hs : w.SameOutside w' (elementPtr .w64 D T (w.addr h) 0)
      (T.size * elementCount .w64 D (w.addr h) w)) : w.SameBut w' h := by
  obtain ⟨m, rfl, hm⟩ := hs
  intro k hk
  refine ⟨rfl, fun _ _ => rfl, fun l hl => readBytes_congr fun i hi => hm _ ?_⟩
  by_contra hc
  -- the last element of the slice ends inside the block of `h`
  cases hcount : elementCount .w64 D (w.addr h) w with
  | zero =>
      rw [hcount] at hc
      omega
  | succ last =>
      obtain ⟨n, hn, hend⟩ := hf.end_le (show last < _ by omega)
      have hlo : w.addr h + 4 * D ≤ elementPtr .w64 D T (w.addr h) 0 := le_elementPtr _ _
      rw [elementPtr_eq] at hend
      rw [hcount, Nat.mul_succ] at hc
      exact hw h k n l hk.symm hn hl (w.addr k + i - w.addr h) (by omega) i hi (by omega)

/-- Worlds with the same elements that differ in the slice at most are equal. -/
theorem eq_of_elements {w w₁ w₂ : World τ} {self n : Nat}
    (h₁ : w.SameOutside w₁ (elementPtr .w64 D T self 0) (T.size * n))
    (h₂ : w.SameOutside w₂ (elementPtr .w64 D T self 0) (T.size * n))
    (h : ∀ i < n, getValueUnchecked .w64 D T self i w₁ = getValueUnchecked .w64 D T self i w₂) :
    w₁ = w₂ := by
  obtain ⟨m₁, rfl, hm₁⟩ := h₁
  obtain ⟨m₂, rfl, hm₂⟩ := h₂
  suffices hmem : m₁ = m₂ by rw [hmem]
  funext a
  by_cases hout : a < elementPtr .w64 D T self 0 ∨ elementPtr .w64 D T self 0 + T.size * n ≤ a
  · rw [hm₁ a hout, hm₂ a hout]
  · -- the byte is the byte `k` of the element `i`
    obtain ⟨j, rfl⟩ := Nat.exists_eq_add_of_le (Nat.le_of_not_lt fun hlt => hout (.inl hlt))
    have hi : j / T.size < n := Nat.div_lt_of_lt_mul (by omega)
    have hk := Nat.mod_lt j T.size_pos
    have hbyte := eq_of_readBytes_eq (congrArg Subtype.val (h _ hi)) hk
    rwa [elementPtr_eq, Nat.add_assoc, Nat.div_add_mod] at hbyte

end LVArray

/-! ## arrays as functions of multi-indices -/

/-- A function after some assignments. -/
def assigned (f : List Nat → α) : List (List Nat × α) → List Nat → α
  | [] => f
  | (ix, v) :: rest => assigned (Function.update f ix v) rest

/-- Assignments see no more of a function than its values. -/
theorem assigned_congr {f g : List Nat → α} {ix : List Nat} (h : f ix = g ix)
    (assignments : List (List Nat × α)) : assigned f assignments ix = assigned g assignments ix := by
  induction assignments generalizing f g with
  | nil => exact h
  | cons a rest ih =>
      refine ih ?_
      by_cases heq : ix = a.1
      · rw [heq, Function.update_self, Function.update_self]
      · rw [Function.update_of_ne heq, Function.update_of_ne heq, h]

theorem assigned_of_not_mem {f : List Nat → α} {assignments : List (List Nat × α)} {ix : List Nat}
    (h : ix ∉ assignments.map Prod.fst) : assigned f assignments ix = f ix := by
  induction assignments generalizing f with
  | nil => rfl
  | cons a rest ih =>
      rw [List.map_cons, List.mem_cons, not_or] at h
      rw [assigned, ih h.2, Function.update_of_ne h.1]

/-- Assignments of the values of a function that reach an index end with its
value there. -/
theorem assigned_eq {f g : List Nat → α} {assignments : List (List Nat × α)}
    (h : ∀ a ∈ assignments, a.2 = g a.1) {ix : List Nat} (hix : ix ∈ assignments.map Prod.fst) :
    assigned f assignments ix = g ix := by
  induction assignments generalizing f with
  | nil => cases hix
  | cons a rest ih =>
      rw [List.forall_mem_cons] at h
      by_cases hrest : ix ∈ rest.map Prod.fst
      · exact ih h.2 hrest
      · rw [List.map_cons, List.mem_cons] at hix
        obtain rfl := hix.resolve_right hrest
        rw [assigned, assigned_of_not_mem hrest, Function.update_self, h.1]

/-- The array of shape `dim` at the address is `f`. -/
structure LVArray.Shows (D : Nat) (dim : List Nat) (addr : Nat) (w : World τ)
    (f : List Nat → T.Val) : Prop where
  shape : (dimSizes D addr w).Shape dim
  shapeOk : ShapeOk dim
  elements : ∀ ix, IsIndex dim ix →
    getValueUnchecked .w64 D T addr (flatIndex dim ix) w = f ix

namespace LVArray

variable {dim : List Nat} {self : Nat} {w : World τ} {f : List Nat → T.Val}

/-- Every array of an admissible shape is a function. -/
theorem exists_shows (hshape : (dimSizes D self w).Shape dim) (hok : ShapeOk dim) :
    ∃ f : List Nat → T.Val, Shows D dim self w f := by
  refine ⟨fun ix => getValueUnchecked .w64 D T self (flatIndex dim ix) w, hshape, hok, ?_⟩
  intro ix _
  rfl

theorem Shows.elementCount (h : Shows D dim self w f) :
    LVArray.elementCount .w64 D self w = dim.prod :=
  h.shape.elementCount h.shapeOk

/-- A view reads the function. -/
theorem Shows.ndarrayView {nd : Ndarray D T.Val} (hnd : nd.Lawful) (h : Shows D dim self w f) :
    ∃ view, LVArray.ndarrayView nd self w = (.ok view, w) ∧ view.dim = dim ∧
      ∀ ix, IsIndex dim ix → view.get ix = f ix := by
  have hdim : ndarrayDim D self w = (.ok dim, w) :=
    LVArrayDims.intoUsizeArray_run_iff.mpr h.shape
  have hlen : (dataAsSlice .w64 D T self w).length = dim.prod := by
    rw [length_dataAsSlice, h.elementCount]
  obtain ⟨view, hview, hvdim, hget⟩ := hnd.fromShape dim _ h.shape.length_eq h.shapeOk hlen.ge
  refine ⟨view, ?_, hvdim, fun ix hix => ?_⟩
  · rw [LVArray.ndarrayView, Exec.bind_of_ok hdim, Exec.read_bind_run, hview]
    rfl
  · have hlt : flatIndex dim ix < (dataAsSlice .w64 D T self w).length := by
      rw [hlen]
      exact flatIndex_lt hix
    have hix' := hget ix hix
    rw [List.getElem?_eq_getElem hlt, getElem_dataAsSlice, h.elements ix hix] at hix'
    exact (Option.some.inj hix').symm

/-- A store at the position of an index updates the function there, and changes
no byte outside of the slice. -/
theorem Shows.setValueUnchecked (h : Shows D dim self w f) {ix : List Nat} (hix : IsIndex dim ix)
    (v : T.Val) :
    Shows D dim self (LVArray.setValueUnchecked .w64 D T self (flatIndex dim ix) v w)
        (Function.update f ix v) ∧
      w.SameOutside (LVArray.setValueUnchecked .w64 D T self (flatIndex dim ix) v w)
        (elementPtr .w64 D T self 0) (T.size * dim.prod) := by
  constructor
  · refine ⟨?_, h.shapeOk, fun jx hjx => ?_⟩
    · rw [dimSizes_setValueUnchecked]
      exact h.shape
    · rw [getValueUnchecked_setValueUnchecked]
      by_cases heq : jx = ix
      · rw [heq, if_pos rfl, Function.update_self]
      · rw [if_neg fun hflat => heq (flatIndex_inj hjx hix hflat.symm), Function.update_of_ne heq]
        exact h.elements jx hjx
  · have hmul := Nat.mul_le_mul_left T.size (flatIndex_lt hix)
    rw [Nat.mul_succ] at hmul
    rw [LVArray.setValueUnchecked, elementPtr_eq]
    exact w.sameOutside_write (by omega) (by rw [v.property]; omega)

/-- The copy loop makes the function whose values it is given. -/
theorem Shows.copyElements (h : Shows D dim self w f) (g : List Nat → T.Val) :
    Shows D dim self (LVArray.copyElements D T self ((indices dim).map g) w) g ∧
      w.SameOutside (LVArray.copyElements D T self ((indices dim).map g) w)
        (elementPtr .w64 D T self 0) (T.size * dim.prod) := by
  have hlen : ((indices dim).map g).length = LVArray.elementCount .w64 D self w := by
    rw [List.length_map, length_indices, h.elementCount]
  constructor
  · refine ⟨?_, h.shapeOk, fun ix hix => ?_⟩
    · rw [dimSizes_copyElements]
      exact h.shape
    · have hget : (dataAsSlice .w64 D T self
          (LVArray.copyElements D T self ((indices dim).map g) w))[flatIndex dim ix]? =
            some (g ix) := by
        rw [dataAsSlice_copyElements hlen, List.getElem?_map, getElem?_indices hix,
          Option.map_some]
      obtain ⟨hlt, hval⟩ := List.getElem?_eq_some_iff.mp hget
      rwa [getElem_dataAsSlice] at hval
  · have hsize : ∀ v : T.Val, v.val.length = T.size := fun v => v.property
    refine w.sameOutside_write (Nat.le_refl _) (Nat.le_of_eq ?_)
    rw [← hlen, List.take_length, length_flatMap_of_length hsize, hlen, h.elementCount]

/-- Arrays of one shape that differ in the slice at most and are the same
function are equal byte for byte. -/
theorem Shows.eq_of_sameOutside {w₁ w₂ : World τ} {f₁ f₂ : List Nat → T.Val}
    (h₁ : Shows D dim self w₁ f₁) (h₂ : Shows D dim self w₂ f₂)
    (hs₁ : w.SameOutside w₁ (elementPtr .w64 D T self 0) (T.size * dim.prod))
    (hs₂ : w.SameOutside w₂ (elementPtr .w64 D T self 0) (T.size * dim.prod))
    (hf : ∀ ix, IsIndex dim ix → f₁ ix = f₂ ix) : w₁ = w₂ := by
  refine eq_of_elements hs₁ hs₂ fun i hi => ?_
  obtain ⟨ix, hix, rfl⟩ := exists_flatIndex hi
  rw [h₁.elements ix hix, h₂.elements ix hix, hf ix hix]

/-! ## mutable views -/

variable {nd : NdarrayMut D T} {view : nd.ArrayViewMut}

/-- A mutable view of the array at the address: it finds each element where the
array has it. -/
def Borrows (nd : NdarrayMut D T) (dim : List Nat) (addr : Nat) (view : nd.ArrayViewMut) : Prop :=
  ∀ ix : NdIndex D, nd.indexMut view ix =
    if IsIndex dim ix.val then some (elementPtr .w64 D T addr (flatIndex dim ix.val)) else none

theorem Shows.ndarrayViewMut (hnd : nd.Lawful) (h : Shows D dim self w f) :
    ∃ view, Borrows nd dim self view ∧
      LVArray.ndarrayViewMut nd self w = (.ok view, w) := by
  have hdim : ndarrayDim D self w = (.ok dim, w) :=
    LVArrayDims.intoUsizeArray_run_iff.mpr h.shape
  obtain ⟨view, hview, hindex⟩ :=
    hnd dim (elementPtr .w64 D T self 0) _ h.shape.length_eq h.shapeOk h.elementCount.ge
  refine ⟨view, fun ix => ?_, ?_⟩
  · rw [hindex, elementPtr_eq .w64 D T self (flatIndex dim ix.val)]
  · rw [LVArray.ndarrayViewMut, Exec.bind_of_ok hdim, Exec.read_bind_run, hview]
    rfl

/-- An assignment through the view is the store at the position of its index. -/
theorem Borrows.assign_run (h : Borrows nd dim self view) {ix : NdIndex D}
    (hix : IsIndex dim ix.val) (v : T.Val) (w : World τ) : nd.assign view ix v w =
      (.ok (), LVArray.setValueUnchecked .w64 D T self (flatIndex dim ix.val) v w) := by
  rw [NdarrayMut.assign, h ix, if_pos hix]
  rfl

/-- An assignment outside of the shape panics. -/
theorem Borrows.assign_panic (h : Borrows nd dim self view) {ix : NdIndex D}
    (hix : ¬ IsIndex dim ix.val) (v : T.Val) (w : World τ) :
    nd.assign view ix v w = (.panic, w) := by
  rw [NdarrayMut.assign, h ix, if_neg hix]
  rfl

/-! ## any assignments -/

/-- The assignments before the first that is outside of the shape. -/
def inShape (dim : List Nat) (assignments : List (NdIndex D × α)) : List (List Nat × α) :=
  (assignments.takeWhile fun a => IsIndex dim a.1.val).map (Prod.map Subtype.val id)

theorem inShape_cons_of_pos {ix : NdIndex D} (hix : IsIndex dim ix.val) (v : α)
    (rest : List (NdIndex D × α)) :
    inShape dim ((ix, v) :: rest) = (ix.val, v) :: inShape dim rest := by
  rw [inShape, List.takeWhile_cons_of_pos (by simpa using hix)]
  rfl

theorem inShape_cons_of_neg {ix : NdIndex D} (hix : ¬ IsIndex dim ix.val) (v : α)
    (rest : List (NdIndex D × α)) : inShape dim ((ix, v) :: rest) = [] := by
  rw [inShape, List.takeWhile_cons_of_neg (by simpa using hix)]
  rfl

theorem inShape_of_all {assignments : List (NdIndex D × α)}
    (h : ∀ a ∈ assignments, IsIndex dim a.1.val) :
    inShape dim assignments = assignments.map (Prod.map Subtype.val id) := by
  rw [inShape, List.takeWhile_eq_self_iff.mpr fun a ha => decide_eq_true (h a ha)]

/-- Assignments through the view, one after the other: the function is updated
up to the first that panics. -/
theorem Borrows.assignEach_run (hv : Borrows nd dim self view)
    (assignments : List (NdIndex D × T.Val)) {w : World τ} {f : List Nat → T.Val}
    (hs : Shows D dim self w f) :
    ∃ w', nd.assignEach view assignments w =
        (if assignments.all fun a => IsIndex dim a.1.val then .ok () else .panic, w') ∧
      Shows D dim self w' (assigned f (inShape dim assignments)) ∧
      w.SameOutside w' (elementPtr .w64 D T self 0) (T.size * dim.prod) := by
  induction assignments generalizing w f with
  | nil => exact ⟨w, by simp [NdarrayMut.assignEach], hs, .refl w _ _⟩
  | cons a rest ih =>
      obtain ⟨ix, v⟩ := a
      by_cases hix : IsIndex dim ix.val
      · obtain ⟨hs₁, hout₁⟩ := hs.setValueUnchecked hix v
        obtain ⟨w', hrun, hs', hout'⟩ := ih hs₁
        refine ⟨w', ?_, ?_, hout₁.trans hout'⟩
        · rw [NdarrayMut.assignEach, Exec.bind_of_ok (hv.assign_run hix v w), hrun, List.all_cons,
            decide_eq_true hix, Bool.true_and]
        · rw [inShape_cons_of_pos hix, assigned]
          exact hs'
      · refine ⟨w, ?_, ?_, .refl w _ _⟩
        · rw [NdarrayMut.assignEach, Exec.bind_of_panic (hv.assign_panic hix v w), List.all_cons,
            decide_eq_false hix, Bool.false_and]
          rfl
        · rw [inShape_cons_of_neg hix]
          exact hs

end LVArray

/-! ## assigning through a handle -/

/-- What assigning through a mutable view promises: the view before, updated
one assignment after the other, is the view after. -/
structure LVArrayHandle.Assigns (nd : Ndarray D T.Val) (dim : List Nat) (h : UHandle)
    (assignments : List (NdIndex D × T.Val)) (w w' : World τ) : Prop where
  view : ∃ before after, LVArray.ndarrayView nd (w.addr h) w = (.ok before, w) ∧
    LVArray.ndarrayView nd (w'.addr h) w' = (.ok after, w') ∧ before.dim = dim ∧ after.dim = dim ∧
    ∀ ix, IsIndex dim ix → after.get ix = assigned before.get (LVArray.inShape dim assignments) ix
  others : w.SameBut w' h

namespace LVArrayHandle

variable {inv : World τ → Prop} {api : MemoryApi τ} {dim : List Nat}
variable {ndMut : NdarrayMut D T} {nd : Ndarray D T.Val}

theorem assignEach_run (hapi : api.Lawful .w64 inv) (hmut : ndMut.Lawful) {s : Slot τ}
    (hu : s.Usable inv) {f : List Nat → T.Val}
    (hs : LVArray.Shows D dim (s.world.addr s.handle) s.world f)
    (assignments : List (NdIndex D × T.Val)) :
    ∃ w', assignEach ndMut assignments s =
        (if assignments.all fun a => IsIndex dim a.1.val then .ok () else .panic, ⟨s.handle, w'⟩) ∧
      LVArray.Shows D dim (s.world.addr s.handle) w'
        (assigned f (LVArray.inShape dim assignments)) ∧
      s.world.SameOutside w' (LVArray.elementPtr .w64 D T (s.world.addr s.handle) 0)
        (T.size * dim.prod) := by
  have hd : (s.handle.deref : Exec (World τ) LVInteropError FatPtr) s.world =
      (.ok ⟨s.world.addr s.handle, (s.world.master s.handle).next⟩, s.world) :=
    Exec.unwrapRead_of_ok (UHandle.asRef_of_usable hapi hu)
  obtain ⟨view, hv, hview⟩ := hs.ndarrayViewMut hmut
  obtain ⟨w', hrun, hs', hout⟩ := hv.assignEach_run assignments hs
  refine ⟨w', ?_, hs', hout⟩
  simp only [assignEach, Slot.onWorld, Exec.bind_of_ok hd, Exec.bind_of_ok hview, hrun]

/-- **Assigning through a mutable view** updates what the view shows, in the
order of the assignments, up to the first that is outside of the shape; that
one panics. -/
theorem assignEach_assigns (hapi : api.Lawful .w64 inv) (hmut : ndMut.Lawful)
    (hnd : nd.Lawful) {s : Slot τ} (hu : s.Usable inv)
    (hf : LVArray.Fits .w64 D T s.world s.handle)
    (hshape : (LVArray.dimSizes D (s.world.addr s.handle) s.world).Shape dim)
    (hok : ShapeOk dim) (assignments : List (NdIndex D × T.Val)) :
    ∃ w', assignEach ndMut assignments s =
        (if assignments.all fun a => IsIndex dim a.1.val then .ok () else .panic, ⟨s.handle, w'⟩) ∧
      Assigns nd dim s.handle assignments s.world w' := by
  obtain ⟨f, hs⟩ := LVArray.exists_shows (T := T) hshape hok
  obtain ⟨w', hrun, hs', hout⟩ := assignEach_run hapi hmut hu hs assignments
  obtain ⟨before, hbefore, hbdim, hbget⟩ := hs.ndarrayView hnd
  obtain ⟨after, hafter, hadim, haget⟩ := hs'.ndarrayView hnd
  have haddr : w'.addr s.handle = s.world.addr s.handle := by
    obtain ⟨m, rfl, -⟩ := hout
    rfl
  refine ⟨w', hrun, ⟨before, after, hbefore, ?_, hbdim, hadim, fun ix hix => ?_⟩, ?_⟩
  · rw [haddr]
    exact hafter
  · rw [haget ix hix]
    exact assigned_congr (hbget ix hix).symm _
  · rw [← hs.elementCount] at hout
    exact hf.sameBut_of_sameOutside (hapi.apart hu.inv) hout

/-- On an array of the shape of a view, assigning each of its elements ends
where the copy loop ends. -/
theorem assignEach_eq_copy (hapi : api.Lawful .w64 inv) (hmut : ndMut.Lawful)
    (hnd : nd.Lawful) {array : ArrayView D T.Val} {s : Slot τ} (hu : s.Usable inv)
    (hshape : (LVArray.dimSizes D (s.world.addr s.handle) s.world).Shape array.dim)
    {assignments : List (NdIndex D × T.Val)}
    (hvalues : ∀ a ∈ assignments, IsIndex array.dim a.1.val ∧ a.2 = array.get a.1.val)
    (hall : ∀ ix, IsIndex array.dim ix → ∃ a ∈ assignments, a.1.val = ix) :
    assignEach ndMut assignments s = (.ok (), ⟨s.handle,
      LVArray.copyElements D T (s.world.addr s.handle) (nd.iter array) s.world⟩) := by
  have hin : ∀ a ∈ assignments, IsIndex array.dim a.1.val := fun a ha => (hvalues a ha).1
  obtain ⟨f, hs⟩ := LVArray.exists_shows (T := T) hshape array.shapeOk
  obtain ⟨w', hrun, hs', hout'⟩ := assignEach_run hapi hmut hu hs assignments
  obtain ⟨hcopy, hout⟩ := hs.copyElements array.get
  rw [if_pos (List.all_eq_true.mpr fun a ha => decide_eq_true (hin a ha))] at hrun
  rw [hrun, hnd.iter, hs'.eq_of_sameOutside hcopy hout' hout fun ix hix => ?_]
  rw [LVArray.inShape_of_all hin]
  refine assigned_eq ?_ ?_
  · intro a ha
    obtain ⟨b, hb, rfl⟩ := List.mem_map.mp ha
    exact (hvalues b hb).2
  · obtain ⟨b, hb, rfl⟩ := hall ix hix
    exact List.mem_map_of_mem (List.mem_map_of_mem hb)

/-- **Resizing and assigning every element of a view**, in any order and as
often as one likes, ends as `copy_from_ndarray` does: with the same error, or
with the same bytes everywhere in memory.  The stored dimensions are not
negative: `copy_from_ndarray` panics on those that are. -/
theorem assignEach_agreesWithCopy (hapi : api.Lawful .w64 inv) (hmut : ndMut.Lawful)
    (hnd : nd.Lawful) {array : ArrayView D T.Val} {s : Slot τ} (hu : s.Usable inv)
    (hdims : ∀ d ∈ (LVArray.dimSizes D (s.world.addr s.handle) s.world).val, 0 ≤ d.toInt)
    {assignments : List (NdIndex D × T.Val)}
    (hvalues : ∀ a ∈ assignments, IsIndex array.dim a.1.val ∧ a.2 = array.get a.1.val)
    (hall : ∀ ix, IsIndex array.dim ix → ∃ a ∈ assignments, a.1.val = ix) :
    resizeAssignEach (.ok api) ndMut array.dim assignments s =
      copyFromNdarray (.ok api) nd array s := by
  obtain ⟨own_dim, hown⟩ := LVArrayDims.exists_shape hdims
  by_cases heq : array.dim = own_dim
  · -- the comparison of `resize_array` finds the dimensions that the array has
    rw [← heq] at hown
    have hskip := resizeArray_of_stored (D := D) hapi T hu
    rw [copyFromNdarray_of_shape hapi nd array hu hown, resizeAssignEach,
      LVArrayDims.tryFrom_eq_ok_iff.mpr hown, Exec.ofExcept_ok, Exec.pure_bind_run,
      Exec.bind_of_ok hskip]
    exact assignEach_eq_copy hapi hmut hnd hu hown hvalues hall
  · cases htry : LVArrayDims.tryFrom D array.dim with
    | error e =>
        rw [copyFromNdarray_of_tryFrom hapi nd hu hown heq htry, resizeAssignEach, htry]
        rfl
    | ok dims =>
        have hshape : dims.Shape array.dim := LVArrayDims.tryFrom_eq_ok_iff.mp htry
        rw [resizeAssignEach, htry, Exec.ofExcept_ok, Exec.pure_bind_run]
        obtain ⟨s₁, hc, ⟨-, e, hresize⟩ | ⟨hresize, hstored⟩⟩ := resizeArray_stores hapi T dims hu
        · rw [(copyFromNdarray_of_resize hapi nd hu hown heq hshape).1 e hresize,
            Exec.bind_of_err hresize]
        · rw [(copyFromNdarray_of_resize hapi nd hu hown heq hshape).2 hresize hc.usable,
            Exec.bind_of_ok hresize]
          rw [← hstored] at hshape
          exact assignEach_eq_copy hapi hmut hnd hc.usable hshape hvalues hall

end LVArrayHandle

/-! ## an implementation -/

/-- Views of contiguous slices, by their shape and their address. -/
def NdarrayMut.contiguous (D : Nat) (T : NumericArrayResizable) : NdarrayMut D T where
  ArrayViewMut := List Nat × Nat
  fromShape dim data len := if dim.prod ≤ len then some (dim, data) else none
  indexMut v ix :=
    if IsIndex v.1 ix.val then some (v.2 + T.size * flatIndex v.1 ix.val) else none

theorem NdarrayMut.contiguous_lawful (D : Nat) (T : NumericArrayResizable) :
    (contiguous D T).Lawful :=
  fun dim data _ _ _ hlen => ⟨(dim, data), if_pos hlen, fun _ => rfl⟩

theorem Bump.shape_withArray (dims : LVArrayDims D) (script : List Int32) {dim : List Nat}
    (h : dims.Shape dim) : (LVArray.dimSizes D ((withArray .w64 dims script).addr ⟨1⟩)
      (withArray .w64 dims script)).Shape dim := by
  rw [dimSizes_withArray]
  exact h

/-- The last element of two rows and two columns, and one of a third row. -/
def twoAssignments : List (NdIndex 2 × NumericArrayResizable.u8.Val) :=
  [(⟨[1, 1], rfl⟩, ⟨[7], rfl⟩), (⟨[2, 0], rfl⟩, ⟨[8], rfl⟩)]

theorem assignEach_assigns_bump :
    ∃ w', LVArrayHandle.assignEach (NdarrayMut.contiguous 2 .u8) twoAssignments
        ⟨⟨1⟩, Bump.withArray .w64 ⟨[2, 2], rfl⟩ []⟩ = (.panic, ⟨⟨1⟩, w'⟩) ∧
      LVArrayHandle.Assigns (Ndarray.contiguous 2 ⟨[0], rfl⟩) [2, 2] ⟨1⟩ twoAssignments
        (Bump.withArray .w64 (D := 2) ⟨[2, 2], rfl⟩ []) w' :=
  @LVArrayHandle.assignEach_assigns Bump 2 .u8 Bump.Inv (Bump.api .w64) [2, 2] _ _
    (Bump.lawful .w64) (NdarrayMut.contiguous_lawful 2 .u8) (Ndarray.contiguous_lawful 2 _) _
    (Bump.withArray_usable ⟨[2, 2], rfl⟩ []) ⟨12, rfl, by decide, by decide⟩
    (Bump.shape_withArray ⟨[2, 2], rfl⟩ [] rfl) (by decide) twoAssignments

/-- Both bytes of the reversed view, the second one first. -/
def reversedAssignments : List (NdIndex 1 × NumericArrayResizable.u8.Val) :=
  [(⟨[1], rfl⟩, ⟨[10], rfl⟩), (⟨[0], rfl⟩, ⟨[20], rfl⟩)]

/-- An array of three bytes is made one of two. -/
theorem assignEach_agreesWithCopy_bump :
    LVArrayHandle.resizeAssignEach (.ok (Bump.api .w64)) (NdarrayMut.contiguous 1 .u8)
        reversedView.dim reversedAssignments ⟨⟨1⟩, Bump.withArray .w64 ⟨[3], rfl⟩ []⟩ =
      LVArrayHandle.copyFromNdarray (.ok (Bump.api .w64)) (Ndarray.contiguous 1 ⟨[0], rfl⟩)
        reversedView ⟨⟨1⟩, Bump.withArray .w64 ⟨[3], rfl⟩ []⟩ ∧
    (LVArrayHandle.copyFromNdarray (.ok (Bump.api .w64)) (Ndarray.contiguous 1 ⟨[0], rfl⟩)
      reversedView ⟨⟨1⟩, Bump.withArray .w64 ⟨[3], rfl⟩ []⟩).1 = .ok () := by
  have hshape : (LVArray.dimSizes 1 ((Bump.withArray .w64 ⟨[3], rfl⟩ []).addr ⟨1⟩)
      (Bump.withArray .w64 (D := 1) ⟨[3], rfl⟩ [])).Shape [3] :=
    Bump.shape_withArray ⟨[3], rfl⟩ [] rfl
  have hvalues : ∀ a ∈ reversedAssignments,
      IsIndex reversedView.dim a.1.val ∧ a.2 = reversedView.get a.1.val := by decide
  have hall : ∀ ix, IsIndex reversedView.dim ix → ∃ a ∈ reversedAssignments, a.1.val = ix := by
    rintro _ (_ | ⟨hlt, ⟨⟩⟩)
    obtain rfl | rfl := Nat.le_one_iff_eq_zero_or_eq_one.mp (Nat.lt_succ_iff.mp hlt)
    · exact ⟨_, List.mem_cons_of_mem _ (List.mem_singleton.mpr rfl), rfl⟩
    · exact ⟨_, List.mem_cons_self, rfl⟩
  constructor
  · exact LVArrayHandle.assignEach_agreesWithCopy (Bump.lawful .w64)
      (NdarrayMut.contiguous_lawful 1 .u8) (Ndarray.contiguous_lawful 1 _)
      (Bump.withArray_usable ⟨[3], rfl⟩ []) hshape.nonneg hvalues hall
  · exact LVArrayHandle.copyFromNdarray_eq_ok (Bump.lawful .w64) _ reversedView
      (Bump.withArray_usable ⟨[3], rfl⟩ []) hshape.nonneg (by decide) (.inr (by decide))

end LvInterop
