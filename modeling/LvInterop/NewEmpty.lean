import LvInterop.Resize

/-!
# LvInterop.NewEmpty

`new_empty` on 64-bit targets.

It makes a handle to a block of no bytes and resizes it, and the resize begins
by reading the header of an array that is not there yet.  What the memory at
that address happens to hold decides: zeros are taken for the header of an
empty array and nothing is allocated, anything else lets the resize go on
(`newEmpty_makesEmpty_iff`).
-/

namespace LvInterop

open Lib

variable {τ : Type} {inv : World τ → Prop} {api : MemoryApi τ}
variable {D : Nat} {T : NumericArrayResizable}

/-- The array of `h` is empty: there is room for its header, which has only
zeros, and for no elements. -/
structure LVArray.IsEmpty (D : Nat) (T : NumericArrayResizable) (w : World τ) (h : UHandle) :
    Prop where
  room : ∃ n, w.live h = some n ∧ 4 * D ≤ n ∧ allocatedElements .w64 D T n = 0
  dims : LVArray.dimSizes D (w.addr h) w = .newEmpty D

/-- An array is made empty, and whoever resizes it later finds it so: as long
as nobody else touches its block. -/
structure LVArrayOwned.MakesEmpty (D : Nat) (T : NumericArrayResizable)
    (r : Outcome LVInteropError UHandle × World τ) : Prop where
  isEmpty : ∀ h, r.1 = .ok h → LVArray.IsEmpty D T r.2 h
  later : ∀ h w', r.1 = .ok h → r.2.Kept w' h → LVArray.IsEmpty D T w' h

/-- `new_empty` from where `DSNewHandle` has returned, with `m` in memory. -/
def LVArrayOwned.newEmptyOn (api : MemoryApi τ) (D : Nat) (T : NumericArrayResizable)
    (w : World τ) (m : Mem) : Outcome LVInteropError UHandle × World τ :=
  OwnedUHandle.wrap (LVArrayHandle.resizeArray (.ok api) .w64 D T (.newEmpty D)
    ⟨(api.newHandle 0 w).1, { (api.newHandle 0 w).2 with mem := m }⟩)

/-- The handle returned, the size of its block and its header do not depend on
what memory holds outside the block, of which there is no byte yet. -/
def LVArrayOwned.Independent (api : MemoryApi τ) (D : Nat) (T : NumericArrayResizable)
    (w : World τ) : Prop :=
  ∀ h w', newEmpty (.ok api) .w64 D T w = (.ok h, w') → ∀ m,
    (newEmptyOn api D T w m).1 = .ok h ∧ (newEmptyOn api D T w m).2.live h = w'.live h ∧
      LVArray.dimSizes D ((newEmptyOn api D T w m).2.addr h) (newEmptyOn api D T w m).2 =
        LVArray.dimSizes D (w'.addr h) w'

/-- The fresh block is taken for an empty array. -/
def LVArrayOwned.Zeroed (api : MemoryApi τ) (D : Nat) (w : World τ) : Prop :=
  LVArray.dimSizes D ((api.newHandle 0 w).2.addr (api.newHandle 0 w).1) (api.newHandle 0 w).2 =
    .newEmpty D

/-- `NumericArrayResize` refuses to make an empty array of the fresh block. -/
def LVArrayOwned.ResizeRefused (api : MemoryApi τ) (D : Nat) (T : NumericArrayResizable)
    (w : World τ) : Prop :=
  (LVArrayHandle.numericArrayResize D T api 0
    ⟨(api.newHandle 0 w).1, (api.newHandle 0 w).2⟩).1 ≠ .SUCCESS

instance (w : World τ) : Decidable (LVArrayOwned.Zeroed api D w) :=
  inferInstanceAs (Decidable (_ = _))

instance (w : World τ) : Decidable (LVArrayOwned.ResizeRefused api D T w) :=
  inferInstanceAs (Decidable (_ ≠ _))

/-! ## empty arrays -/

/-- Dimensions of zero count no elements. -/
theorem LVArrayDims.elementCount_newEmpty (width : PtrWidth) (hD : 0 < D) :
    (newEmpty D).elementCount width = 0 := by
  have hcount := elementCount_eq_ite width (newEmpty D)
  have hprod : (newEmpty D).product = 0 := by
    simp [product, newEmpty, List.prod_replicate, hD.ne']
  rw [hprod, ite_self] at hcount
  exact_mod_cast hcount

/-- An empty array stays empty as long as its block is kept. -/
theorem LVArray.IsEmpty.of_kept {w w' : World τ} {h : UHandle} (he : IsEmpty D T w h)
    (hk : w.Kept w' h) : IsEmpty D T w' h := by
  obtain ⟨⟨n, hn, h4, hcount⟩, hdims⟩ := he
  refine ⟨⟨n, by rw [hk.live, hn], h4, hcount⟩, ?_⟩
  rw [dimSizes_of_block hk.block hn h4, hdims]

namespace LVArrayHandle

/-- The resize of `new_empty`: the block is returned as it is, or the manager
refuses, or an empty array is made of it. -/
theorem resizeArray_newEmpty (hapi : api.Lawful .w64 inv) (T : NumericArrayResizable) (hD : 0 < D)
    {s : Slot τ} (hu : s.Usable inv) :
    (LVArray.dimSizes D (s.world.addr s.handle) s.world = .newEmpty D ∧
      resizeArray (.ok api) .w64 D T (.newEmpty D) s = (.ok (), s)) ∨
    (LVArray.dimSizes D (s.world.addr s.handle) s.world ≠ .newEmpty D ∧
      (((numericArrayResize D T api 0 s).1 ≠ .SUCCESS ∧
        ∃ e s', resizeArray (.ok api) .w64 D T (.newEmpty D) s = (.err e, s')) ∨
      ((numericArrayResize D T api 0 s).1 = .SUCCESS ∧
        ∃ w', LVArray.IsEmpty D T w' s.handle ∧
          resizeArray (.ok api) .w64 D T (.newEmpty D) s = (.ok (), ⟨s.handle, w'⟩)))) := by
  have hzero := LVArrayDims.elementCount_newEmpty .w64 hD
  obtain ⟨hun, hrun⟩ | ⟨-, ⟨e, he⟩, -⟩ | ⟨hun, st, s₁, hreq, -, hcase⟩ :=
    resizeArray_cases hapi T (.newEmpty D) hu.inv
  · exact .inl ⟨(unchanged_iff hapi hu).mp hun, hrun⟩
  · cases (UHandle.asRef_of_usable hapi hu).symm.trans he
  · rw [hzero] at hreq hcase
    refine .inr ⟨fun h => hun ((unchanged_iff hapi hu).mpr h), ?_⟩
    obtain ⟨hst, -, -, e, hrun⟩ | ⟨rfl, ht, -, ⟨size, hg, hsize, hcount, -⟩, hrun⟩ := hcase
    · exact .inl ⟨by rw [hreq]; exact hst, e, s₁, hrun⟩
    · have hh : s₁.handle = s.handle := by
        obtain ⟨hnull, -⟩ | ⟨-, hh, -⟩ := ht
        · exact absurd hnull (UHandle.ne_null_of_live hapi hu.inv hu.live)
        · exact hh
      refine .inr ⟨by rw [hreq], s₁.world.write (s₁.world.addr s.handle)
        (LVArrayDims.newEmpty D).toBytes, ?_, by rw [hrun, hh]⟩
      rw [hh] at hg
      exact ⟨⟨size, hg.live, hsize, hcount⟩, LVArray.dimSizes_write s₁.world _ (.newEmpty D)⟩

end LVArrayHandle

namespace LVArrayOwned

/-! ## the answers of the manager -/

/-- A block of no bytes is no array. -/
theorem not_isEmpty_of_granted {w w' : World τ} {h : UHandle} (hD : 0 < D)
    (hg : w.Granted w' h 0) : ¬ LVArray.IsEmpty D T w' h := by
  rintro ⟨⟨n, hn, h4, -⟩, -⟩
  rw [hg.live] at hn
  obtain rfl := Option.some.inj hn
  omega

/-- An array that is empty when it is returned is found empty later. -/
theorem makesEmpty_iff_isEmpty {h : UHandle} {w : World τ} :
    MakesEmpty D T (.ok h, w) ↔ LVArray.IsEmpty D T w h := by
  constructor
  · exact fun hm => hm.isEmpty h rfl
  · intro he
    refine ⟨?_, ?_⟩
    · rintro h' ⟨⟩
      exact he
    · rintro h' w' ⟨⟩ hk
      exact he.of_kept hk

/-- Nothing is promised of what is not returned. -/
theorem makesEmpty_of_err (e : LVInteropError) (w : World τ) :
    MakesEmpty D T (.err e, w) where
  isEmpty _ h := nomatch h
  later _ _ h := nomatch h

theorem independent_of_err {e : LVInteropError} {w w' : World τ}
    (hrun : newEmpty (.ok api) .w64 D T w = (.err e, w')) : Independent api D T w := by
  intro h w'' hok
  cases (Prod.mk.inj (hrun.symm.trans hok)).1

section Fresh

variable {w : World τ} {s : Slot τ}

theorem zeroed_of_fresh (hf : OwnedUHandle.Fresh api inv w s) :
    Zeroed api D w ↔ LVArray.dimSizes D (s.world.addr s.handle) s.world = .newEmpty D := by
  rw [Zeroed, hf.new]

theorem resizeRefused_of_fresh (hf : OwnedUHandle.Fresh api inv w s) :
    ResizeRefused api D T w ↔ (LVArrayHandle.numericArrayResize D T api 0 s).1 ≠ .SUCCESS := by
  rw [ResizeRefused, hf.new]

/-- With zeros in the place of the header, the block of no bytes is returned. -/
theorem newEmptyOn_zeros (hapi : api.Lawful .w64 inv) (hD : 0 < D)
    (hf : OwnedUHandle.Fresh api inv w s) :
    ∃ m, newEmptyOn api D T w m = (.ok s.handle, { s.world with mem := m }) := by
  refine ⟨writeBytes s.world.mem (s.world.addr s.handle) (LVArrayDims.newEmpty D).toBytes, ?_⟩
  have hu : (⟨s.handle, s.world.write (s.world.addr s.handle)
      (LVArrayDims.newEmpty D).toBytes⟩ : Slot τ).Usable inv :=
    ⟨hapi.inv_mem _ hf.usable.inv, hf.usable.live, hf.usable.addr⟩
  have hz := LVArray.dimSizes_write s.world (s.world.addr s.handle) (.newEmpty D)
  obtain ⟨-, hrun⟩ | ⟨hne, -⟩ := LVArrayHandle.resizeArray_newEmpty hapi T hD hu
  · rw [newEmptyOn, hf.new]
    exact congrArg OwnedUHandle.wrap hrun
  · exact absurd hz hne

/-- An empty array was made because the memory outside its block said so. -/
theorem not_independent_of_isEmpty (hapi : api.Lawful .w64 inv) (hD : 0 < D)
    (hf : OwnedUHandle.Fresh api inv w s) {h : UHandle} {w' : World τ}
    (hrun : newEmpty (.ok api) .w64 D T w = (.ok h, w')) (he : LVArray.IsEmpty D T w' h) :
    ¬ Independent api D T w := by
  intro hind
  obtain ⟨m, hm⟩ := newEmptyOn_zeros (T := T) hapi hD hf
  obtain ⟨hh, hlive, -⟩ := hind h w' hrun m
  rw [hm] at hh hlive
  obtain rfl := Outcome.ok.inj hh
  obtain ⟨⟨n, hn, h4, -⟩, -⟩ := he
  rw [hn] at hlive
  obtain rfl := Option.some.inj (hf.granted.live.symm.trans hlive)
  omega

end Fresh

/-- The four ends of `new_empty`. -/
theorem newEmpty_cases (hapi : api.Lawful .w64 inv) (T : NumericArrayResizable) (hD : 0 < D)
    {w : World τ} (hinv : inv w) :
    ((api.newHandle 0 w).1 = .null ∧ ∃ e w', newEmpty (.ok api) .w64 D T w = (.err e, w')) ∨
    ((api.newHandle 0 w).1 ≠ .null ∧ ∃ s, OwnedUHandle.Fresh api inv w s ∧
      ((Zeroed api D w ∧ newEmpty (.ok api) .w64 D T w = (.ok s.handle, s.world)) ∨
      (¬ Zeroed api D w ∧ ResizeRefused api D T w ∧
        ∃ e w', newEmpty (.ok api) .w64 D T w = (.err e, w')) ∨
      (¬ Zeroed api D w ∧ ¬ ResizeRefused api D T w ∧ ∃ w', LVArray.IsEmpty D T w' s.handle ∧
        newEmpty (.ok api) .w64 D T w = (.ok s.handle, w')))) := by
  obtain ⟨w₀, hn, -, -, hrun⟩ | ⟨s, hf, hrun⟩ := OwnedUHandle.newUnsized_cases hapi hinv
    (LVArrayHandle.resizeArray (.ok api) .w64 D T (.newEmpty D))
  · exact .inl ⟨by rw [hn], _, w₀, hrun⟩
  · refine .inr ⟨by rw [hf.new]; exact hf.ne_null, s, hf, ?_⟩
    rw [zeroed_of_fresh hf, resizeRefused_of_fresh hf, newEmpty, hrun]
    obtain ⟨hz, hr⟩ | ⟨hz, ⟨hst, e, s', hr⟩ | ⟨hst, w', he, hr⟩⟩ :=
      LVArrayHandle.resizeArray_newEmpty hapi T hD hf.usable
    · exact .inl ⟨hz, by rw [hr]; rfl⟩
    · exact .inr (.inl ⟨hz, hst, e, s'.world, by rw [hr]; rfl⟩)
    · exact .inr (.inr ⟨hz, fun h => h hst, w', he, by rw [hr]; rfl⟩)

/-! ## when the array is well formed -/

/-- **`new_empty` on 64-bit targets**: the array it returns is empty exactly
when the memory at the fresh block's address is not zero already, and it never
is so whatever memory holds. -/
theorem newEmpty_makesEmpty_iff (hapi : api.Lawful .w64 inv) (T : NumericArrayResizable)
    (hD : 0 < D) {w : World τ} (hinv : inv w) :
    (MakesEmpty D T (newEmpty (.ok api) .w64 D T w) ↔
      (api.newHandle 0 w).1 = .null ∨ ¬ Zeroed api D w) ∧
    (MakesEmpty D T (newEmpty (.ok api) .w64 D T w) ∧ Independent api D T w ↔
      (api.newHandle 0 w).1 = .null ∨ (¬ Zeroed api D w ∧ ResizeRefused api D T w)) := by
  obtain ⟨hn, e, w', hrun⟩ | ⟨hn, s, hf, ⟨hz, hrun⟩ | ⟨hz, hst, e, w', hrun⟩ |
    ⟨hz, hst, w', he, hrun⟩⟩ := newEmpty_cases hapi T hD hinv
  · have hind := independent_of_err hrun
    rw [hrun]
    simp [hn, hind, makesEmpty_of_err]
  · have hno : ¬ MakesEmpty D T (newEmpty (.ok api) .w64 D T w) := by
      rw [hrun, makesEmpty_iff_isEmpty]
      exact not_isEmpty_of_granted hD hf.granted
    simp [hn, hz, hno]
  · have hind := independent_of_err hrun
    rw [hrun]
    simp [hz, hst, hind, makesEmpty_of_err]
  · have hind := not_independent_of_isEmpty hapi hD hf hrun he
    have hmade : MakesEmpty D T (newEmpty (.ok api) .w64 D T w) := by
      rw [hrun]
      exact makesEmpty_iff_isEmpty.mpr he
    simp [hn, hz, hst, hind, hmade]

end LVArrayOwned

/-- A process whose memory is not zero where the next block comes. -/
def Bump.used (script : List Int32) : World Bump := { start 0 script with mem := fun _ => 1 }

theorem Bump.inv_used (script : List Int32) : Inv (used script) := (inv_start 0 script).mem _

open LVArrayOwned

/-- The ones in memory are no header of zeros, so an empty array is made, and
the zeros that would have kept it from being made are outside its block.  Where
the resize is refused there is no array to depend on them. -/
theorem newEmpty_makesEmpty_used :
    MakesEmpty 1 .u8 (newEmpty (.ok (Bump.api .w64)) .w64 1 .u8 (Bump.used [])) ∧
    ¬ (MakesEmpty 1 .u8 (newEmpty (.ok (Bump.api .w64)) .w64 1 .u8 (Bump.used [])) ∧
      Independent (Bump.api .w64) 1 .u8 (Bump.used [])) ∧
    (MakesEmpty 1 .u8 (newEmpty (.ok (Bump.api .w64)) .w64 1 .u8 (Bump.used [0, 2])) ∧
      Independent (Bump.api .w64) 1 .u8 (Bump.used [0, 2])) := by
  obtain ⟨hmade, hboth⟩ := newEmpty_makesEmpty_iff (Bump.lawful .w64) .u8 Nat.one_pos
    (Bump.inv_used [])
  obtain ⟨-, hrefused⟩ := newEmpty_makesEmpty_iff (Bump.lawful .w64) .u8 Nat.one_pos
    (Bump.inv_used [0, 2])
  rw [hboth, hrefused]
  exact ⟨hmade.mpr (by decide), by decide, by decide⟩

/-- In memory of zeros `new_empty` returns a block of no bytes. -/
theorem not_newEmpty_makesEmpty :
    ¬ MakesEmpty 1 .u8 (newEmpty (.ok (Bump.api .w64)) .w64 1 .u8 (Bump.start 0 [])) := by
  intro hm
  obtain ⟨⟨n, hn, h4, -⟩, -⟩ := hm.isEmpty ⟨1⟩ (by decide)
  have hzero : (newEmpty (.ok (Bump.api .w64)) .w64 1 .u8 (Bump.start 0 [])).2.live ⟨1⟩ =
      some 0 := by decide
  rw [hzero] at hn
  obtain rfl := Option.some.inj hn
  omega

end LvInterop
