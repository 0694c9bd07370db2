import LvInterop.Resize
import Mathlib.Data.List.Infix

/-!
# LvInterop.Elements

What array operations do to the elements (`types/array/mod.rs`,
`types/array/memory.rs`).

A store changes one element of the slice (`dataAsSlice_setValueUnchecked`).
`resize_array` moves the block and rewrites the header; the elements that all
shapes on the way have keep their place in the slice
(`resizeEach_keepsElements`), and the comparison it starts with saves a request
without being seen in the array (`resizeArray_agreesWithPlain`).
-/

namespace LvInterop

open Lib

variable {τ : Type} {width : PtrWidth} {inv : World τ → Prop} {api : MemoryApi τ}
variable {D : Nat} {T : NumericArrayResizable}

/-! ## one element -/

namespace LVArray

@[simp] theorem length_dataAsSlice (self : Nat) (w : World τ) :
    (dataAsSlice width D T self w).length = elementCount width D self w := by
  simp [dataAsSlice]

theorem getElem_dataAsSlice {self i : Nat} {w : World τ}
    (h : i < (dataAsSlice width D T self w).length) :
    (dataAsSlice width D T self w)[i] = getValueUnchecked width D T self i w := by
  simp [dataAsSlice]

/-- Different elements share no byte. -/
theorem elementPtr_apart (self : Nat) {i j : Nat} (h : i ≠ j) :
    Apart (elementPtr width D T self i) T.size (elementPtr width D T self j) T.size := by
  have hlt : ∀ a b : Nat, a < b →
      elementPtr width D T self a + T.size ≤ elementPtr width D T self b := by
    intro a b hab
    have hmul := Nat.mul_le_mul_left T.size hab
    rw [Nat.mul_succ] at hmul
    simp only [elementPtr]
    omega
  obtain hij | hij := Nat.lt_or_gt_of_ne h
  · exact apart_of_le (hlt i j hij)
  · exact (apart_of_le (hlt j i hij)).symm

/-- The header is not stored into. -/
@[simp] theorem dimSizes_setValueUnchecked (self i : Nat) (v : T.Val) (w : World τ) :
    dimSizes D self (setValueUnchecked width D T self i v w) = dimSizes D self w :=
  dimSizes_write_of_le (le_elementPtr self i)

@[simp] theorem elementCount_setValueUnchecked (self i : Nat) (v : T.Val) (w : World τ) :
    elementCount width D self (setValueUnchecked width D T self i v w) =
      elementCount width D self w := by
  simp [elementCount]

/-- Reading after a store. -/
theorem getValueUnchecked_setValueUnchecked (self i j : Nat) (v : T.Val) (w : World τ) :
    getValueUnchecked width D T self j (setValueUnchecked width D T self i v w) =
      if i = j then v else getValueUnchecked width D T self j w := by
  apply Subtype.ext
  split
  · next h =>
    subst h
    have hread := readBytes_writeBytes w.mem (elementPtr width D T self i) v.val
    rw [v.property] at hread
    exact hread
  · next h =>
    refine readBytes_writeBytes_of_apart ?_
    rw [v.property]
    exact elementPtr_apart self h

/-- A store changes that element of the slice and no other. -/
theorem dataAsSlice_setValueUnchecked (self i : Nat) (v : T.Val) (w : World τ) :
    dataAsSlice width D T self (setValueUnchecked width D T self i v w) =
      (dataAsSlice width D T self w).set i v := by
  apply List.ext_getElem (by simp)
  intro j _ _
  rw [getElem_dataAsSlice, getValueUnchecked_setValueUnchecked, List.getElem_set,
    getElem_dataAsSlice]

end LVArray

/-! ## elements that move -/

/-- The lists agree wherever both have an element. -/
def SameFront (xs ys : List α) : Prop := ∀ i, i < xs.length → i < ys.length → xs[i]? = ys[i]?

theorem SameFront.refl (xs : List α) : SameFront xs xs := fun _ _ _ => rfl

theorem SameFront.of_eq {xs ys : List α} (h : xs = ys) : SameFront xs ys := h ▸ .refl xs

/-- Lists of one length that agree are equal. -/
theorem SameFront.eq_of_length {xs ys : List α} (h : SameFront xs ys)
    (hlen : xs.length = ys.length) : xs = ys := by
  apply List.ext_getElem? fun i => ?_
  by_cases hi : i < xs.length
  · exact h i hi (hlen ▸ hi)
  · rw [List.getElem?_eq_none (Nat.le_of_not_lt hi),
      List.getElem?_eq_none (by omega)]

namespace LVArray

/-- A store of the header keeps the elements. -/
theorem getValueUnchecked_write_toBytes (self i : Nat) (dims : LVArrayDims D) (w : World τ) :
    getValueUnchecked width D T self i (w.write self dims.toBytes) =
      getValueUnchecked width D T self i w := by
  have hlo : self + dims.toBytes.length ≤ elementPtr width D T self i := by
    rw [LVArrayDims.length_toBytes]
    exact le_elementPtr self i
  exact Subtype.ext (readBytes_writeBytes_of_apart (apart_of_le hlo))

end LVArray

namespace LVArrayHandle

/-- An element that fits before and after is moved with the block. -/
theorem MadeRoom.getValueUnchecked_eq {s s₁ : Slot τ} {n old i : Nat}
    (hroom : MadeRoom width D T n s s₁) (hold : s.world.live s.handle = some old)
    (hi : i < allocatedElements width D T old) (hi' : i < n) :
    LVArray.getValueUnchecked width D T (s₁.world.addr s₁.handle) i s₁.world =
      LVArray.getValueUnchecked width D T (s.world.addr s.handle) i s.world := by
  obtain ⟨size, -, -, hn, hsurv⟩ := hroom
  have hend := end_le_of_allocated hi
  have hend' := end_le_of_allocated (show i < allocatedElements width D T size by omega)
  rw [Nat.mul_succ, ← Nat.add_assoc] at hend hend'
  have hsub := readBytes_sub (hsurv old hold) (Nat.le_min.mpr ⟨hend, hend'⟩)
  rw [← Nat.add_assoc, ← Nat.add_assoc] at hsub
  exact Subtype.ext hsub

/-- The elements behind a header that was stored in its new room. -/
theorem MadeRoom.sameFront {s s₁ : Slot τ} {dims : LVArrayDims D}
    (hroom : MadeRoom width D T (dims.elementCount width) s s₁)
    (hf : LVArray.Fits width D T s.world s.handle) :
    SameFront (LVArray.dataAsSlice width D T (s₁.world.addr s₁.handle)
        (s₁.world.write (s₁.world.addr s₁.handle) dims.toBytes))
      (LVArray.dataAsSlice width D T (s.world.addr s.handle) s.world) := by
  obtain ⟨old, hold, -, hcount⟩ := hf
  intro i hi hi'
  have hnew : i < dims.elementCount width := by
    rwa [LVArray.length_dataAsSlice, LVArray.elementCount, LVArray.dimSizes_write] at hi
  have hfit : i < allocatedElements width D T old := by
    rw [LVArray.length_dataAsSlice] at hi'
    exact Nat.lt_of_lt_of_le hi' hcount
  rw [List.getElem?_eq_getElem hi, List.getElem?_eq_getElem hi', LVArray.getElem_dataAsSlice,
    LVArray.getElem_dataAsSlice, LVArray.getValueUnchecked_write_toBytes,
    hroom.getValueUnchecked_eq hold hfit hnew]

/-- **`resize_array` keeps the elements both shapes have**, however it ends. -/
theorem resizeArray_sameFront (hapi : api.Lawful width inv) (dims : LVArrayDims D) {s s' : Slot τ}
    {o : Outcome LVInteropError Unit} (hinv : inv s.world)
    (hf : LVArray.Fits width D T s.world s.handle)
    (hrun : resizeArray (.ok api) width D T dims s = (o, s')) :
    SameFront (LVArray.dataAsSlice width D T (s'.world.addr s'.handle) s'.world)
      (LVArray.dataAsSlice width D T (s.world.addr s.handle) s.world) := by
  obtain ⟨-, hr⟩ | ⟨-, -, hr⟩ | ⟨-, st, s₁, -, -, ⟨-, hh, hsame, e, hr⟩ | ⟨-, -, -, hroom, hr⟩⟩ :=
    resizeArray_cases hapi T dims hinv
  · obtain rfl := (Prod.mk.inj (hr.symm.trans hrun)).2
    exact .refl _
  · obtain rfl := (Prod.mk.inj (hr.symm.trans hrun)).2
    exact .refl _
  · obtain rfl := (Prod.mk.inj (hr.symm.trans hrun)).2
    rw [hh]
    exact .of_eq (hf.dataAsSlice_of_block (hsame s.handle).block)
  · obtain rfl := (Prod.mk.inj (hr.symm.trans hrun)).2
    exact hroom.sameFront hf

/-! ## the comparison -/

/-- `resize_array` without the comparison it starts with on 64-bit targets. -/
def resizeAlways (memoryApi : Result (MemoryApi τ)) (width : PtrWidth) (D : Nat)
    (T : NumericArrayResizable) (new_dims : LVArrayDims D) : Exec (Slot τ) LVInteropError Unit := do
  let new_size := new_dims.elementCount width
  let api ← Exec.ofExcept memoryApi
  let mg_err ← Exec.call (numericArrayResize D T api new_size)
  let result := mg_err.toSpecificResult ()
  if result.isOk then
    storeDims D new_dims
  Exec.ofExcept result

/-- 32-bit targets have no comparison. -/
theorem resizeArray_w32 (memoryApi : Result (MemoryApi τ)) (dims : LVArrayDims D) :
    resizeArray memoryApi .w32 D T dims = resizeAlways memoryApi .w32 D T dims := rfl

/-- A comparison that finds a difference changes nothing. -/
theorem resizeArray_of_differs {dims : LVArrayDims D} {s : Slot τ}
    (h : sameDims width D dims s = (.ok false, s)) (memoryApi : Result (MemoryApi τ)) :
    resizeArray memoryApi width D T dims s = resizeAlways memoryApi width D T dims s := by
  rw [resizeArray, Exec.bind_of_ok h]
  rfl

/-- What leaving the comparison out may change: the request may be refused,
and the block may move. -/
structure AgreesWithPlain (width : PtrWidth) (inv : World τ → Prop) (T : NumericArrayResizable)
    (dims : LVArrayDims D) (s : Slot τ) (r plain : Outcome LVInteropError Unit × Slot τ) : Prop where
  confined : s.Confined inv plain.2
  of_err : ∀ e, plain.1 = .err e → s.world.Same plain.2.world ∧ (r = plain ∨ r = (.ok (), s))
  of_ok : plain.1 = .ok () → r.1 = .ok () ∧
    LVArray.dimSizes D (r.2.world.addr s.handle) r.2.world = dims ∧
    LVArray.dimSizes D (plain.2.world.addr s.handle) plain.2.world = dims ∧
    LVArray.dataAsSlice width D T (r.2.world.addr s.handle) r.2.world =
      LVArray.dataAsSlice width D T (plain.2.world.addr s.handle) plain.2.world
  noPanic : plain.1 ≠ .panic

/-- `resize_array` without the comparison on a usable handle: refused without
a change, or room is made and the request is stored. -/
theorem resizeAlways_cases (hapi : api.Lawful width inv) (T : NumericArrayResizable)
    (dims : LVArrayDims D) {s : Slot τ} (hu : s.Usable inv) :
    (∃ s₁ e, s.Confined inv s₁ ∧ s.world.Same s₁.world ∧
      resizeAlways (.ok api) width D T dims s = (.err e, s₁)) ∨
    (∃ s₁, MadeRoom width D T (dims.elementCount width) s s₁ ∧
      s.Confined inv ⟨s₁.handle, s₁.world.write (s₁.world.addr s₁.handle) dims.toBytes⟩ ∧
      resizeAlways (.ok api) width D T dims s =
        (.ok (), ⟨s₁.handle, s₁.world.write (s₁.world.addr s₁.handle) dims.toBytes⟩)) := by
  rcases hr : api.numericArrayResize T.TYPE_CODE D s.handle (dims.elementCount width) s.world with
    ⟨⟨st, h'⟩, w'⟩
  have hreq : numericArrayResize D T api (dims.elementCount width) s = (st, ⟨h', w'⟩) := by
    rw [numericArrayResize, hr]
  obtain ⟨hinv', ⟨hst, rfl, hsame⟩ | ⟨rfl, ht, size, hg, hD, hn, hsurv⟩⟩ := hapi.resize hu.inv hr
  · obtain ⟨e, he⟩ := LVStatusCode.toSpecificResult_of_ne hst ()
    refine .inl ⟨⟨s.handle, w'⟩, e, hu.confined_of_same hinv' hsame, hsame, ?_⟩
    simp [resizeAlways, hreq, he, Except.isOk, Except.toBool, Exec.bind_run]
  · have hu' : (⟨h', w'⟩ : Slot τ).Usable inv := ⟨hinv', by simp [World.Live, hg.live], hg.addr⟩
    have hroom : MadeRoom width D T (dims.elementCount width) s ⟨h', w'⟩ := ⟨size, hg, hD, hn, hsurv⟩
    have hstored := hg.stored (sameBut_storeDims hapi dims hu' hroom) rfl rfl
    have he : s.Effect inv (.ok (), ⟨h', w'.write (w'.addr h') dims.toBytes⟩) :=
      .of_granted (hapi.inv_mem _ hinv') ht hstored
    refine .inr ⟨⟨h', w'⟩, hroom, he.confined_of_usable hapi hu, ?_⟩
    have hstore := storeDims_run (UHandle.asRef_of_usable hapi hu') dims
    simp [resizeAlways, hreq, Except.isOk, Except.toBool, Exec.bind_of_ok hstore]

/-- The slice behind a header that was stored in its new room, where the header
has not changed. -/
theorem MadeRoom.dataAsSlice_eq {s s₁ : Slot τ} {dims : LVArrayDims D}
    (hroom : MadeRoom width D T (dims.elementCount width) s s₁)
    (hf : LVArray.Fits width D T s.world s.handle)
    (hdims : LVArray.dimSizes D (s.world.addr s.handle) s.world = dims) :
    LVArray.dataAsSlice width D T (s₁.world.addr s₁.handle)
        (s₁.world.write (s₁.world.addr s₁.handle) dims.toBytes) =
      LVArray.dataAsSlice width D T (s.world.addr s.handle) s.world := by
  apply (hroom.sameFront hf).eq_of_length
  rw [LVArray.length_dataAsSlice, LVArray.length_dataAsSlice, LVArray.elementCount,
    LVArray.elementCount, LVArray.dimSizes_write, hdims]

/-- **The comparison is not seen** on a usable handle: where the request is
granted without it, `resize_array` with it leaves the same dimensions and the
same elements.  A null handle it does see, with a panic. -/
theorem resizeArray_agreesWithPlain (hapi : api.Lawful width inv) (dims : LVArrayDims D) {s : Slot τ}
    (hu : s.Usable inv) (hf : LVArray.Fits width D T s.world s.handle) :
    AgreesWithPlain width inv T dims s (resizeArray (.ok api) width D T dims s)
      (resizeAlways (.ok api) width D T dims s) := by
  -- with a difference the two are one
  have hdiffers : sameDims width D dims s = (.ok false, s) →
      resizeArray (.ok api) width D T dims s = resizeAlways (.ok api) width D T dims s :=
    fun h => resizeArray_of_differs h _
  obtain ⟨s₁, e, hc, hsame, hrun⟩ | ⟨s₁, hroom, hc, hrun⟩ := resizeAlways_cases hapi T dims hu
  · rw [hrun]
    refine ⟨hc, fun e' _ => ⟨hsame, ?_⟩, nofun, nofun⟩
    obtain ⟨-, h⟩ | ⟨-, ⟨e', he⟩, -⟩ | ⟨-, h⟩ := sameDims_cases width dims s
    · exact .inr (resizeArray_of_unchanged h)
    · cases (UHandle.asRef_of_usable hapi hu).symm.trans he
    · exact .inl ((hdiffers h).trans hrun)
  · have hh : s₁.handle = s.handle := hc.handle
    have hstored := LVArray.dimSizes_write s₁.world (s₁.world.addr s₁.handle) dims
    rw [hrun]
    refine ⟨hc, nofun, fun _ => ?_, nofun⟩
    obtain ⟨hun, h⟩ | ⟨-, ⟨e', he⟩, -⟩ | ⟨-, h⟩ := sameDims_cases width dims s
    · have hdims := dimSizes_of_unchanged hapi hu hun
      have hslice := hroom.dataAsSlice_eq hf hdims
      rw [hh] at hslice hstored
      rw [resizeArray_of_unchanged h, hh]
      exact ⟨rfl, hdims, hstored, hslice.symm⟩
    · cases (UHandle.asRef_of_usable hapi hu).symm.trans he
    · rw [hdiffers h, hrun, ← hh]
      exact ⟨rfl, hstored, hstored, rfl⟩

/-! ## runs of requests -/

/-- A run of requests by a caller that goes on after an error. -/
def resizeEach (memoryApi : Result (MemoryApi τ)) (width : PtrWidth) (D : Nat)
    (T : NumericArrayResizable) (requests : List (LVArrayDims D)) (s : Slot τ) : Slot τ :=
  requests.foldl (fun s dims => (resizeArray memoryApi width D T dims s).2) s

/-- What a run of requests leaves of the array it was given. -/
structure KeepsFront (width : PtrWidth) (inv : World τ → Prop) (T : NumericArrayResizable)
    (requests : List (LVArrayDims D)) (s s' : Slot τ) : Prop where
  confined : s.Confined inv s'
  fits : LVArray.Fits width D T s'.world s'.handle
  dims : LVArray.dimSizes D (s'.world.addr s'.handle) s'.world =
      LVArray.dimSizes D (s.world.addr s.handle) s.world ∨
    LVArray.dimSizes D (s'.world.addr s'.handle) s'.world ∈ requests
  elements : ∀ i v, (∀ dims ∈ requests, i < dims.elementCount width) →
    (LVArray.dataAsSlice width D T (s.world.addr s.handle) s.world)[i]? = some v →
    (LVArray.dataAsSlice width D T (s'.world.addr s'.handle) s'.world)[i]? = some v

/-- No requests. -/
theorem KeepsFront.refl {s : Slot τ} (hu : s.Usable inv)
    (hf : LVArray.Fits width D T s.world s.handle) : KeepsFront (D := D) width inv T [] s s :=
  ⟨hu.confined_self, hf, .inl rfl, fun _ _ _ h => h⟩

/-- One request more in front. -/
theorem KeepsFront.cons {dims : LVArrayDims D} {requests : List (LVArrayDims D)} {s s₁ s₂ : Slot τ}
    (h₁ : KeepsFront width inv T [dims] s s₁) (h₂ : KeepsFront width inv T requests s₁ s₂) :
    KeepsFront width inv T (dims :: requests) s s₂ := by
  refine ⟨h₁.confined.trans h₂.confined, h₂.fits, ?_, fun i v hi hv => ?_⟩
  · obtain heq | hmem := h₂.dims
    · rw [heq]
      exact h₁.dims.imp id fun h => by simpa using Or.inl (List.mem_singleton.mp h)
    · exact .inr (List.mem_cons_of_mem _ hmem)
  · refine h₂.elements i v (fun d hd => hi d (List.mem_cons_of_mem _ hd)) ?_
    exact h₁.elements i v (fun d hd => hi d (by simp [List.mem_singleton.mp hd])) hv

/-- One request keeps the elements below what it counts. -/
theorem resizeArray_keepsFront (hapi : api.Lawful width inv) (dims : LVArrayDims D) {s : Slot τ}
    (hu : s.Usable inv) (hf : LVArray.Fits width D T s.world s.handle) :
    KeepsFront width inv T [dims] s (resizeArray (.ok api) width D T dims s).2 := by
  obtain ⟨s₁, hc, hcase⟩ := resizeArray_stores hapi T dims hu
  have hkeep : ∀ o, resizeArray (.ok api) width D T dims s = (o, s₁) →
      (LVArray.dimSizes D (s₁.world.addr s₁.handle) s₁.world =
          LVArray.dimSizes D (s.world.addr s.handle) s.world ∨
        LVArray.dimSizes D (s₁.world.addr s₁.handle) s₁.world = dims) →
      KeepsFront width inv T [dims] s (resizeArray (.ok api) width D T dims s).2 := by
    intro o hrun hdims
    have hfront := resizeArray_sameFront hapi dims hu.inv hf hrun
    rw [hrun]
    refine ⟨hc, resizeArray_fits hapi dims hu hf hrun, hdims.imp id List.mem_singleton.mpr, ?_⟩
    intro i v hi hv
    have hlt := (List.getElem?_eq_some_iff.mp hv).1
    rw [hfront i ?_ hlt, hv]
    rw [LVArray.length_dataAsSlice] at hlt ⊢
    have hcount := hi dims (List.mem_singleton.mpr rfl)
    obtain heq | heq := hdims
    · rwa [LVArray.elementCount, heq]
    · rwa [LVArray.elementCount, heq]
  obtain ⟨hsame, e, hrun⟩ | ⟨hrun, hdims⟩ := hcase
  · obtain ⟨n, hn, hD, -⟩ := id hf
    refine hkeep _ hrun (.inl ?_)
    rw [hc.handle]
    exact LVArray.dimSizes_of_block (hsame s.handle).block hn hD
  · exact hkeep _ hrun (.inr hdims)

/-- The requests of a run, one after the other. -/
theorem resizeEach_keepsFront (hapi : api.Lawful width inv) (requests : List (LVArrayDims D))
    {s : Slot τ} (hu : s.Usable inv) (hf : LVArray.Fits width D T s.world s.handle) :
    KeepsFront width inv T requests s (resizeEach (.ok api) width D T requests s) := by
  induction requests generalizing s with
  | nil => exact .refl hu hf
  | cons dims requests ih =>
      have hone := resizeArray_keepsFront hapi dims hu hf
      exact hone.cons (ih hone.confined.usable hone.fits)

/-- An element that the array has after each request of a run is the element it
had before the run. -/
theorem getElem?_resizeEach (hapi : api.Lawful width inv) (requests : List (LVArrayDims D))
    {s : Slot τ} (hu : s.Usable inv) (hf : LVArray.Fits width D T s.world s.handle) {i : Nat}
    {v : T.Val} (hi : ∀ l, l <+: requests → i < LVArray.elementCount width D
      ((resizeEach (.ok api) width D T l s).world.addr (resizeEach (.ok api) width D T l s).handle)
      (resizeEach (.ok api) width D T l s).world)
    (hv : (LVArray.dataAsSlice width D T (s.world.addr s.handle) s.world)[i]? = some v) :
    (LVArray.dataAsSlice width D T ((resizeEach (.ok api) width D T requests s).world.addr
        (resizeEach (.ok api) width D T requests s).handle)
      (resizeEach (.ok api) width D T requests s).world)[i]? = some v := by
  induction requests generalizing s with
  | nil => exact hv
  | cons dims requests ih =>
      rcases hrun : resizeArray (.ok api) width D T dims s with ⟨o, s₁⟩
      have hone := resizeArray_keepsFront hapi dims hu hf
      have hcons : ∀ l, resizeEach (.ok api) width D T (dims :: l) s =
          resizeEach (.ok api) width D T l s₁ := fun l => by
        rw [resizeEach, List.foldl_cons, hrun]
        rfl
      rw [hrun] at hone
      rw [hcons]
      refine ih hone.confined.usable hone.fits ?_ ?_
      · intro l hl
        have hprefix := hi (dims :: l) (List.cons_prefix_cons.mpr ⟨rfl, hl⟩)
        rwa [hcons] at hprefix
      · have hfirst := hi [dims] (List.cons_prefix_cons.mpr ⟨rfl, List.nil_prefix⟩)
        rw [hcons, ← LVArray.length_dataAsSlice (T := T)] at hfirst
        have hlt := (List.getElem?_eq_some_iff.mp hv).1
        exact (resizeArray_sameFront hapi dims hu.inv hf hrun i hfirst hlt).trans hv

/-- **Elements survive every run of resize requests**, granted or refused: those
below what every request counts, and all of them when the array is back at its
dimensions and had no fewer elements after any of the requests. -/
theorem resizeEach_keepsElements (hapi : api.Lawful width inv) (requests : List (LVArrayDims D))
    {s : Slot τ} (hu : s.Usable inv) (hf : LVArray.Fits width D T s.world s.handle) :
    KeepsFront width inv T requests s (resizeEach (.ok api) width D T requests s) ∧
      (LVArray.dimSizes D ((resizeEach (.ok api) width D T requests s).world.addr s.handle)
          (resizeEach (.ok api) width D T requests s).world =
          LVArray.dimSizes D (s.world.addr s.handle) s.world →
        (∀ l, l <+: requests → LVArray.elementCount width D (s.world.addr s.handle) s.world ≤
          LVArray.elementCount width D
            ((resizeEach (.ok api) width D T l s).world.addr s.handle)
            (resizeEach (.ok api) width D T l s).world) →
        LVArray.dataAsSlice width D T
            ((resizeEach (.ok api) width D T requests s).world.addr s.handle)
            (resizeEach (.ok api) width D T requests s).world =
          LVArray.dataAsSlice width D T (s.world.addr s.handle) s.world) := by
  have hrun := fun l => resizeEach_keepsFront hapi l hu hf
  refine ⟨hrun requests, fun hdims hcount => ?_⟩
  rw [LVArray.elementCount, ← hdims] at hcount
  apply List.ext_getElem
  · rw [LVArray.length_dataAsSlice, LVArray.length_dataAsSlice, LVArray.elementCount,
      LVArray.elementCount, hdims]
  · intro i hi' hi
    have hkept := getElem?_resizeEach hapi requests hu hf (fun l hl => ?_)
      (List.getElem?_eq_getElem hi)
    · rw [(hrun requests).confined.handle] at hkept
      exact (List.getElem?_eq_some_iff.mp hkept).2
    · rw [(hrun l).confined.handle]
      rw [LVArray.length_dataAsSlice] at hi'
      exact Nat.lt_of_lt_of_le hi' (hcount l hl)

end LVArrayHandle

/-- Asking for the dimensions an array has. -/
theorem resizeArray_agreesWithPlain_bump :
    LVArrayHandle.AgreesWithPlain .w64 Bump.Inv .u8 ⟨[3], rfl⟩ ⟨⟨1⟩, Bump.withArray .w64 ⟨[3], rfl⟩ []⟩
      (LVArrayHandle.resizeArray (.ok (Bump.api .w64)) .w64 1 .u8 ⟨[3], rfl⟩
        ⟨⟨1⟩, Bump.withArray .w64 ⟨[3], rfl⟩ []⟩)
      (LVArrayHandle.resizeAlways (.ok (Bump.api .w64)) .w64 1 .u8 ⟨[3], rfl⟩
        ⟨⟨1⟩, Bump.withArray .w64 ⟨[3], rfl⟩ []⟩) :=
  LVArrayHandle.resizeArray_agreesWithPlain (Bump.lawful .w64) ⟨[3], rfl⟩
    (Bump.withArray_usable _ _) ⟨7, rfl, by decide, by decide⟩

/-- Three bytes grow to five and shrink to three again; the request for two in
between is refused. -/
theorem resizeEach_keepsElements_bump :
    LVArray.dataAsSlice .w64 1 .u8
        ((LVArrayHandle.resizeEach (.ok (Bump.api .w64)) .w64 1 .u8
          [⟨[5], rfl⟩, ⟨[2], rfl⟩, ⟨[3], rfl⟩]
          ⟨⟨1⟩, Bump.withArray .w64 ⟨[3], rfl⟩ [0, 2, 0]⟩).world.addr ⟨1⟩)
        (LVArrayHandle.resizeEach (.ok (Bump.api .w64)) .w64 1 .u8
          [⟨[5], rfl⟩, ⟨[2], rfl⟩, ⟨[3], rfl⟩]
          ⟨⟨1⟩, Bump.withArray .w64 ⟨[3], rfl⟩ [0, 2, 0]⟩).world =
      LVArray.dataAsSlice .w64 1 .u8 ((Bump.withArray .w64 (D := 1) ⟨[3], rfl⟩ [0, 2, 0]).addr ⟨1⟩)
        (Bump.withArray .w64 (D := 1) ⟨[3], rfl⟩ [0, 2, 0]) := by
  refine (LVArrayHandle.resizeEach_keepsElements (D := 1) (Bump.lawful .w64)
    [⟨[5], rfl⟩, ⟨[2], rfl⟩, ⟨[3], rfl⟩] (Bump.withArray_usable _ _)
    ⟨7, rfl, by decide, by decide⟩).2 (by decide) fun l hl => ?_
  rw [← List.mem_inits] at hl
  revert l
  decide

end LvInterop
