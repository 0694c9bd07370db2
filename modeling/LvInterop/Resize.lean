import LvInterop.LvArray
import LvInterop.Bump

/-!
# LvInterop.Resize

`resize_array`, case by case, and when the header it leaves is honest.

There are four ways through: the request equals the stored dimensions
(64-bit only), the handle cannot be dereferenced (64-bit only, a panic), the
manager refuses, or the manager makes room for the counted elements and the
request is stored.  The count of a request with a negative or overflowing
entry is 0, so the last way is open to it too: `resizeArray_honest_iff`.
-/

namespace LvInterop

open Lib

variable {τ : Type} {width : PtrWidth} {inv : World τ → Prop} {api : MemoryApi τ}
variable {D : Nat} {T : NumericArrayResizable}

namespace LVArrayHandle

/-- The request is what the handle's header already says, and is looked at. -/
def Unchanged (width : PtrWidth) (dims : LVArrayDims D) (s : Slot τ) : Prop :=
  width = .w64 ∧ ∃ array, s.handle.asRef s.world = .ok array ∧
    dims = LVArray.dimSizes D array.addr s.world

/-- The three ways through the comparison. -/
theorem sameDims_cases (width : PtrWidth) (dims : LVArrayDims D) (s : Slot τ) :
    (Unchanged width dims s ∧ sameDims width D dims s = (.ok true, s)) ∨
    (width = .w64 ∧ (∃ e, s.handle.asRef s.world = .error e) ∧
      sameDims width D dims s = (.panic, s)) ∨
    (¬ Unchanged width dims s ∧ sameDims width D dims s = (.ok false, s)) := by
  cases width with
  | w32 => exact .inr (.inr ⟨fun h => absurd h.1 (by decide), rfl⟩)
  | w64 =>
      cases hr : s.handle.asRef s.world with
      | error e =>
          refine .inr (.inl ⟨rfl, ⟨e, rfl⟩, ?_⟩)
          have hd : (s.handle.deref : Exec (World τ) LVInteropError FatPtr) s.world =
              (.panic, s.world) := Exec.unwrapRead_of_error hr
          simp only [sameDims, Slot.onWorld, Exec.bind_of_panic hd]
      | ok array =>
          have hd : (s.handle.deref : Exec (World τ) LVInteropError FatPtr) s.world =
              (.ok array, s.world) := Exec.unwrapRead_of_ok hr
          by_cases heq : dims = LVArray.dimSizes D array.addr s.world
          · refine .inl ⟨⟨rfl, array, hr, heq⟩, ?_⟩
            simp only [sameDims, Slot.onWorld, Exec.bind_of_ok hd, Exec.read_run, decide_eq_true heq]
          · refine .inr (.inr ⟨?_, ?_⟩)
            · rintro ⟨-, array', hr', heq'⟩
              obtain rfl := Except.ok.inj (hr.symm.trans hr')
              exact heq heq'
            · simp only [sameDims, Slot.onWorld, Exec.bind_of_ok hd, Exec.read_run,
                decide_eq_false heq]

/-- The assignment to the header of a handle that can be dereferenced. -/
theorem storeDims_run {s : Slot τ} {array : FatPtr} (hr : s.handle.asRef s.world = .ok array)
    (dims : LVArrayDims D) : storeDims D dims s =
      (.ok (), ⟨s.handle, s.world.write array.addr dims.toBytes⟩) := by
  have hd : (s.handle.deref : Exec (World τ) LVInteropError FatPtr) s.world =
      (.ok array, s.world) := Exec.unwrapRead_of_ok hr
  simp only [storeDims, Slot.onWorld, Exec.bind_of_ok hd, Exec.modify_run]

/-- `resize_array` when the stored dimensions are those asked for. -/
theorem resizeArray_of_unchanged {dims : LVArrayDims D} {s : Slot τ}
    (h : sameDims width D dims s = (.ok true, s)) :
    resizeArray (.ok api) width D T dims s = (.ok (), s) := by
  rw [resizeArray, Exec.bind_of_ok h, if_pos rfl, Exec.pure_run]

/-- `resize_array` on a handle that cannot be dereferenced. -/
theorem resizeArray_of_panic {dims : LVArrayDims D} {s : Slot τ}
    (h : sameDims width D dims s = (.panic, s)) :
    resizeArray (.ok api) width D T dims s = (.panic, s) := by
  rw [resizeArray, Exec.bind_of_panic h]

/-- `resize_array` when the manager refuses. -/
theorem resizeArray_of_refused {dims : LVArrayDims D} {s s₁ : Slot τ} {st : LVStatusCode}
    {e : LVInteropError} (h : sameDims width D dims s = (.ok false, s))
    (hr : numericArrayResize D T api (dims.elementCount width) s = (st, s₁))
    (he : st.toSpecificResult () = .error e) :
    resizeArray (.ok api) width D T dims s = (.err e, s₁) := by
  rw [resizeArray, Exec.bind_of_ok h]
  simp [hr, he, Except.isOk, Except.toBool, Exec.bind_run]

/-- `resize_array` when the manager makes room. -/
theorem resizeArray_of_granted {dims : LVArrayDims D} {s s₁ : Slot τ} {array : FatPtr}
    (h : sameDims width D dims s = (.ok false, s))
    (hr : numericArrayResize D T api (dims.elementCount width) s = (.SUCCESS, s₁))
    (href : s₁.handle.asRef s₁.world = .ok array) : resizeArray (.ok api) width D T dims s =
      (.ok (), ⟨s₁.handle, s₁.world.write array.addr dims.toBytes⟩) := by
  rw [resizeArray, Exec.bind_of_ok h]
  simp [hr, Except.isOk, Except.toBool, Exec.bind_of_ok (storeDims_run href dims)]

/-- What the manager did when it granted a request for `n` elements of an
array that is now behind the handle of `s₁`. -/
def MadeRoom (width : PtrWidth) (D : Nat) (T : NumericArrayResizable) (n : Nat) (s s₁ : Slot τ) :
    Prop :=
  ∃ size, s.world.Granted s₁.world s₁.handle size ∧ 4 * D ≤ size ∧
    allocatedElements width D T size = n ∧
    s.world.Survives s₁.world s.handle s₁.handle size

/-- **`resize_array`, on any handle.** -/
theorem resizeArray_cases (hapi : api.Lawful width inv) (T : NumericArrayResizable)
    (dims : LVArrayDims D) {s : Slot τ} (hinv : inv s.world) :
    (Unchanged width dims s ∧ resizeArray (.ok api) width D T dims s = (.ok (), s)) ∨
    (width = .w64 ∧ (∃ e, s.handle.asRef s.world = .error e) ∧
      resizeArray (.ok api) width D T dims s = (.panic, s)) ∨
    (¬ Unchanged width dims s ∧ ∃ st s₁,
      numericArrayResize D T api (dims.elementCount width) s = (st, s₁) ∧ inv s₁.world ∧
      ((st ≠ .SUCCESS ∧ s₁.handle = s.handle ∧ s.world.Same s₁.world ∧
          ∃ e, resizeArray (.ok api) width D T dims s = (.err e, s₁)) ∨
        (st = .SUCCESS ∧ s.world.Target s.handle s₁.handle ∧ s₁.Usable inv ∧
          MadeRoom width D T (dims.elementCount width) s s₁ ∧
          resizeArray (.ok api) width D T dims s =
            (.ok (), ⟨s₁.handle, s₁.world.write (s₁.world.addr s₁.handle) dims.toBytes⟩)))) := by
  obtain ⟨hun, h⟩ | ⟨hw, he, h⟩ | ⟨hun, h⟩ := sameDims_cases width dims s
  · exact .inl ⟨hun, resizeArray_of_unchanged h⟩
  · exact .inr (.inl ⟨hw, he, resizeArray_of_panic h⟩)
  · rcases hr : api.numericArrayResize T.TYPE_CODE D s.handle (dims.elementCount width) s.world with
      ⟨⟨st, h'⟩, w'⟩
    have hreq : numericArrayResize D T api (dims.elementCount width) s = (st, ⟨h', w'⟩) := by
      rw [numericArrayResize, hr]
    obtain ⟨hinv', ⟨hst, hh, hsame⟩ | ⟨rfl, ht, size, hg, hD, hn, hsurv⟩⟩ := hapi.resize hinv hr
    · obtain ⟨e, he⟩ := LVStatusCode.toSpecificResult_of_ne hst ()
      exact .inr (.inr ⟨hun, st, ⟨h', w'⟩, hreq, hinv',
        .inl ⟨hst, hh, hsame, e, resizeArray_of_refused h hreq he⟩⟩)
    · have hu : (⟨h', w'⟩ : Slot τ).Usable inv := ⟨hinv', by simp [World.Live, hg.live], hg.addr⟩
      exact .inr (.inr ⟨hun, .SUCCESS, ⟨h', w'⟩, hreq, hinv',
        .inr ⟨rfl, ht, hu, ⟨size, hg, hD, hn, hsurv⟩,
          resizeArray_of_granted h hreq (UHandle.asRef_of_usable hapi hu)⟩⟩)

/-- Storing a header is confined to the block that has room for it. -/
theorem sameBut_storeDims (hapi : api.Lawful width inv) {s s₁ : Slot τ} {n : Nat}
    (dims : LVArrayDims D) (hu : s₁.Usable inv) (hroom : MadeRoom width D T n s s₁) :
    s₁.world.SameBut (s₁.world.write (s₁.world.addr s₁.handle) dims.toBytes) s₁.handle := by
  obtain ⟨size, hg, hD, -⟩ := hroom
  refine World.sameBut_write (hapi.apart hu.inv) hg.live (Nat.le_refl _) ?_
  rw [LVArrayDims.length_toBytes]
  exact Nat.add_le_add_left hD _

/-- The header that was stored fits the room that was made for it. -/
theorem fits_storeDims {s s₁ : Slot τ} {dims : LVArrayDims D}
    (hroom : MadeRoom width D T (dims.elementCount width) s s₁) :
    LVArray.Fits width D T (s₁.world.write (s₁.world.addr s₁.handle) dims.toBytes) s₁.handle := by
  obtain ⟨size, hg, hD, hn, -⟩ := hroom
  refine ⟨size, hg.live, hD, ?_⟩
  rw [World.write_addr, LVArray.elementCount, LVArray.dimSizes_write, hn]

/-- `resize_array` keeps to the block of its handle. -/
theorem resizeArray_effect (hapi : api.Lawful width inv) (T : NumericArrayResizable)
    (dims : LVArrayDims D) {s : Slot τ} (hinv : inv s.world) :
    s.Effect inv (resizeArray (.ok api) width D T dims s) := by
  obtain ⟨-, hrun⟩ | ⟨-, -, hrun⟩ | ⟨-, st, s₁, -, hinv₁, ⟨-, hh, hsame, e, hrun⟩ |
      ⟨-, ht, hu₁, hroom, hrun⟩⟩ := resizeArray_cases hapi T dims hinv
  · rw [hrun]
    exact .same hinv rfl (.refl _)
  · rw [hrun]
    exact .same hinv rfl (.refl _)
  · rw [hrun]
    exact .same hinv₁ hh hsame
  · rw [hrun]
    obtain ⟨size, hg, -⟩ := id hroom
    have hstored := hg.stored (sameBut_storeDims hapi dims hu₁ hroom) rfl rfl
    exact .of_granted (hapi.inv_mem _ hinv₁) ht hstored

/-- `resize_array` leaves everything as it was, or a header that came with the
room for what it counts. -/
theorem resizeArray_same_or_fits (hapi : api.Lawful width inv) (T : NumericArrayResizable)
    (dims : LVArrayDims D) {s s' : Slot τ} {o : Outcome LVInteropError Unit} (hinv : inv s.world)
    (hrun : resizeArray (.ok api) width D T dims s = (o, s')) :
    (s'.handle = s.handle ∧ s.world.Same s'.world) ∨ LVArray.Fits width D T s'.world s'.handle := by
  obtain ⟨-, hr⟩ | ⟨-, -, hr⟩ | ⟨-, st, s₁, -, -, ⟨-, hh, hsame, e, hr⟩ | ⟨-, -, -, hroom, hr⟩⟩ :=
    resizeArray_cases hapi T dims hinv
  · obtain rfl := (Prod.mk.inj (hr.symm.trans hrun)).2
    exact .inl ⟨rfl, .refl _⟩
  · obtain rfl := (Prod.mk.inj (hr.symm.trans hrun)).2
    exact .inl ⟨rfl, .refl _⟩
  · obtain rfl := (Prod.mk.inj (hr.symm.trans hrun)).2
    exact .inl ⟨hh, hsame⟩
  · obtain rfl := (Prod.mk.inj (hr.symm.trans hrun)).2
    exact .inr (fits_storeDims hroom)

/-- A success of `resize_array` that is not a comparison leaves a header that
came with its room. -/
theorem resizeArray_fits_of_ok (hapi : api.Lawful width inv) {dims : LVArrayDims D} {s s' : Slot τ}
    (hinv : inv s.world) (hun : ¬ Unchanged width dims s)
    (hrun : resizeArray (.ok api) width D T dims s = (.ok (), s')) :
    LVArray.Fits width D T s'.world s'.handle := by
  obtain ⟨hu, -⟩ | ⟨-, -, hr⟩ | ⟨-, st, s₁, -, -, ⟨-, -, -, e, hr⟩ | ⟨-, -, -, hroom, hr⟩⟩ :=
    resizeArray_cases hapi T dims hinv
  · exact absurd hu hun
  · simp [hr] at hrun
  · simp [hr] at hrun
  · obtain rfl := (Prod.mk.inj (hr.symm.trans hrun)).2
    exact fits_storeDims hroom

/-- `resize_array` keeps the header and the allocation together. -/
theorem resizeArray_fits (hapi : api.Lawful width inv) (dims : LVArrayDims D) {s s' : Slot τ}
    {o : Outcome LVInteropError Unit} (hu : s.Usable inv)
    (hf : LVArray.Fits width D T s.world s.handle)
    (hrun : resizeArray (.ok api) width D T dims s = (o, s')) :
    LVArray.Fits width D T s'.world s'.handle := by
  obtain ⟨hh, hsame⟩ | hfits := resizeArray_same_or_fits hapi T dims hu.inv hrun
  · rw [hh]
    exact hf.of_block (hsame s.handle).block
  · exact hfits

/-- `resize_array` on a usable handle succeeds when the stored dimensions are
those asked for, or the manager makes room. -/
theorem resizeArray_ok_iff (hapi : api.Lawful width inv) (T : NumericArrayResizable)
    (dims : LVArrayDims D) {s : Slot τ} (hu : s.Usable inv) :
    (resizeArray (.ok api) width D T dims s).1 = .ok () ↔ Unchanged width dims s ∨
      (numericArrayResize D T api (dims.elementCount width) s).1 = .SUCCESS := by
  obtain ⟨hun, hrun⟩ | ⟨-, ⟨e, he⟩, -⟩ | ⟨hun, st, s₁, hreq, -, ⟨hst, -, -, e, hrun⟩ |
      ⟨hst, -, -, -, hrun⟩⟩ := resizeArray_cases hapi T dims hu.inv
  · simp [hrun, hun]
  · simp [UHandle.asRef_of_usable hapi hu] at he
  · simp [hrun, hreq, hst, hun]
  · simp [hrun, hreq, hst]

/-- After `resize_array` on a usable handle: an error and no change, or the
request is what the header says. -/
theorem resizeArray_stores (hapi : api.Lawful width inv) (T : NumericArrayResizable)
    (dims : LVArrayDims D) {s : Slot τ} (hu : s.Usable inv) : ∃ s₁, s.Confined inv s₁ ∧
      ((s.world.Same s₁.world ∧ ∃ e, resizeArray (.ok api) width D T dims s = (.err e, s₁)) ∨
        (resizeArray (.ok api) width D T dims s = (.ok (), s₁) ∧
          LVArray.dimSizes D (s₁.world.addr s₁.handle) s₁.world = dims)) := by
  have hc := (resizeArray_effect hapi T dims hu.inv).confined_of_usable hapi hu
  obtain ⟨⟨-, array, href, hdims⟩, hrun⟩ | ⟨-, ⟨e, he⟩, -⟩ | ⟨-, st, s₁, -, -,
      ⟨-, -, hsame, e, hrun⟩ | ⟨-, -, -, -, hrun⟩⟩ := resizeArray_cases hapi T dims hu.inv
  · obtain rfl := Except.ok.inj ((UHandle.asRef_of_usable hapi hu).symm.trans href)
    exact ⟨s, hu.confined_self, .inr ⟨hrun, hdims.symm⟩⟩
  · simp [UHandle.asRef_of_usable hapi hu] at he
  · rw [hrun] at hc
    exact ⟨s₁, hc, .inl ⟨hsame, e, hrun⟩⟩
  · rw [hrun] at hc
    exact ⟨_, hc, .inr ⟨hrun, LVArray.dimSizes_write s₁.world _ dims⟩⟩

end LVArrayHandle

/-! ## honest headers -/

/-- The header of `h` says, over the integers, what is allocated. -/
def LVArray.Honest (width : PtrWidth) (D : Nat) (T : NumericArrayResizable) (w : World τ)
    (h : UHandle) : Prop :=
  ∃ n, w.live h = some n ∧ 4 * D ≤ n ∧ (LVArray.dimSizes D (w.addr h) w).Valid width ∧
    (allocatedElements width D T n : Int) = (LVArray.dimSizes D (w.addr h) w).product

/-- What accepting or refusing a request promises about the header. -/
structure LVArrayHandle.HonestResize (width : PtrWidth) (T : NumericArrayResizable)
    (dims : LVArrayDims D) (s : Slot τ) (r : Outcome LVInteropError Unit × Slot τ) : Prop where
  of_ok : r.1 = .ok () → ∃ n, r.2.world.live r.2.handle = some n ∧
    (∀ d ∈ (LVArray.dimSizes D (r.2.world.addr r.2.handle) r.2.world).val, 0 ≤ d.toInt) ∧
    (allocatedElements width D T n : Int) =
      (LVArray.dimSizes D (r.2.world.addr r.2.handle) r.2.world).product
  of_not_valid : ¬ dims.Valid width → (∃ e, r.1 = .err e) ∧ r.2.handle = s.handle ∧
    LVArray.dimSizes D (r.2.world.addr r.2.handle) r.2.world =
      LVArray.dimSizes D (s.world.addr s.handle) s.world

namespace LVArrayHandle

/-- The stored dimensions when the comparison found them unchanged. -/
theorem dimSizes_of_unchanged (hapi : api.Lawful width inv) {dims : LVArrayDims D} {s : Slot τ}
    (hu : s.Usable inv) (h : Unchanged width dims s) :
    LVArray.dimSizes D (s.world.addr s.handle) s.world = dims := by
  obtain ⟨-, array, hr, hdims⟩ := h
  obtain rfl := Except.ok.inj ((UHandle.asRef_of_usable hapi hu).symm.trans hr)
  exact hdims.symm

/-- The comparison of a usable handle. -/
theorem unchanged_iff (hapi : api.Lawful .w64 inv) {dims : LVArrayDims D} {s : Slot τ}
    (hu : s.Usable inv) :
    Unchanged .w64 dims s ↔ LVArray.dimSizes D (s.world.addr s.handle) s.world = dims := by
  constructor
  · exact dimSizes_of_unchanged hapi hu
  · exact fun h => ⟨rfl, _, UHandle.asRef_of_usable hapi hu, h.symm⟩

/-- A request for the dimensions that are stored. -/
theorem resizeArray_of_stored (hapi : api.Lawful .w64 inv) (T : NumericArrayResizable) {s : Slot τ}
    (hu : s.Usable inv) : resizeArray (.ok api) .w64 D T
      (LVArray.dimSizes D (s.world.addr s.handle) s.world) s = (.ok (), s) := by
  obtain ⟨-, hrun⟩ | ⟨-, ⟨e, he⟩, -⟩ | ⟨hno, -⟩ :=
    resizeArray_cases hapi T (LVArray.dimSizes D (s.world.addr s.handle) s.world) hu.inv
  · exact hrun
  · cases (UHandle.asRef_of_usable hapi hu).symm.trans he
  · exact absurd ((unchanged_iff hapi hu).mpr rfl) hno

/-- **`resize_array` keeps the header honest exactly when** the request is
valid or the manager refuses to make room for the elements it is counted as. -/
theorem resizeArray_honest_iff (hapi : api.Lawful width inv) {dims : LVArrayDims D} {s : Slot τ}
    (hu : s.Usable inv) (hs : LVArray.Honest width D T s.world s.handle) :
    HonestResize width T dims s (resizeArray (.ok api) width D T dims s) ↔
      dims.Valid width ∨
        (numericArrayResize D T api (dims.elementCount width) s).1 ≠ .SUCCESS := by
  obtain ⟨n, hn, hD, hvalid, hprod⟩ := hs
  obtain ⟨hun, hrun⟩ | ⟨-, ⟨e, he⟩, -⟩ | ⟨-, st, s₁, hreq, hinv₁, hcase⟩ :=
    resizeArray_cases hapi T dims hu.inv
  · -- a request that is already stored is as valid as the header
    have hdims := dimSizes_of_unchanged hapi hu hun
    refine ⟨fun _ => .inl (hdims ▸ hvalid), fun _ => ?_⟩
    rw [hrun]
    exact ⟨fun _ => ⟨n, hn, hvalid.nonneg, hprod⟩, fun hc => absurd (hdims ▸ hvalid) hc⟩
  · simp [UHandle.asRef_of_usable hapi hu] at he
  · rw [hreq]
    obtain ⟨hst, hh, hsame, e, hrun⟩ | ⟨rfl, ht, hu₁, ⟨size, hg, hD₁, hcount, -⟩, hrun⟩ := hcase
    · refine ⟨fun _ => .inr hst, fun _ => ?_⟩
      rw [hrun]
      constructor
      · intro hc
        cases hc
      · intro _
        refine ⟨⟨e, rfl⟩, hh, ?_⟩
        rw [hh]
        exact LVArray.dimSizes_of_block (hsame s.handle).block hn hD
    · rw [or_iff_left (fun hc => hc rfl), hrun]
      constructor
      · intro hhr
        by_contra hc
        obtain ⟨⟨e, he⟩, -⟩ := hhr.of_not_valid hc
        cases he
      · intro hv
        refine ⟨fun _ => ⟨size, hg.live, ?_, ?_⟩, fun hc => absurd hv hc⟩
        · rw [World.write_addr, LVArray.dimSizes_write]
          exact hv.nonneg
        · rw [World.write_addr, LVArray.dimSizes_write, hcount]
          exact LVArrayDims.elementCount_of_valid hv

end LVArrayHandle

/-- A process that LabVIEW passes one array of bytes; it answers requests by
`script`. -/
def Bump.withArray (width : PtrWidth) (dims : LVArrayDims D) (script : List Int32) : World Bump :=
  let r := (Bump.api width).numericArrayResize NumericArrayResizable.u8.TYPE_CODE D .null
    (dims.elementCount width) (Bump.start 0 (0 :: script))
  r.2.write 4096 dims.toBytes

theorem Bump.withArray_usable (dims : LVArrayDims D) (script : List Int32) :
    (⟨⟨1⟩, Bump.withArray width dims script⟩ : Slot Bump).Usable Bump.Inv := by
  have hlaw := (Bump.lawful width).resize (T := .u8) (D := D) (h := .null)
    (n := dims.elementCount width) (Bump.inv_start 0 (0 :: script)) rfl
  exact ⟨hlaw.1.mem _, Option.some_ne_none _, Nat.succ_ne_zero 4095⟩

theorem Bump.dimSizes_withArray (dims : LVArrayDims D) (script : List Int32) :
    LVArray.dimSizes D ((Bump.withArray width dims script).addr ⟨1⟩)
      (Bump.withArray width dims script) = dims :=
  LVArray.dimSizes_write _ _ _

/-- The empty array of one dimension. -/
def Bump.noElements : LVArrayDims 1 := ⟨[0], rfl⟩

theorem resizeArray_honest_iff_bump :
    LVArrayHandle.HonestResize .w64 .u8 ⟨[3], rfl⟩ ⟨⟨1⟩, Bump.withArray .w64 Bump.noElements []⟩
      (LVArrayHandle.resizeArray (.ok (Bump.api .w64)) .w64 1 .u8 ⟨[3], rfl⟩
        ⟨⟨1⟩, Bump.withArray .w64 Bump.noElements []⟩) :=
  (LVArrayHandle.resizeArray_honest_iff (Bump.lawful .w64) (Bump.withArray_usable _ _)
    ⟨4, rfl, by decide, by decide, by decide⟩).mpr (.inl (by decide))

/-- A negative dimension is accepted as an empty array and stored. -/
theorem not_resizeArray_honest :
    ¬ LVArrayHandle.HonestResize .w64 .u8 ⟨[-1], rfl⟩
      ⟨⟨1⟩, Bump.withArray .w64 Bump.noElements []⟩
      (LVArrayHandle.resizeArray (.ok (Bump.api .w64)) .w64 1 .u8 ⟨[-1], rfl⟩
        ⟨⟨1⟩, Bump.withArray .w64 Bump.noElements []⟩) := by
  intro hhr
  obtain ⟨⟨e, he⟩, -⟩ := hhr.of_not_valid (by decide)
  cases (rfl : Outcome.ok () = _).trans he

end LvInterop
