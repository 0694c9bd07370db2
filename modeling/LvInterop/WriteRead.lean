import LvInterop.LStr
import LvInterop.Bump

/-!
# LvInterop.WriteRead

Reading a string back after it was written.

The writer goes by the length in the reference made from the handle, which is
the word LabVIEW keeps behind the master pointer; the reader goes by the size
field.  Nothing ties the two together: `set` delivers what it was given exactly
when that word happens to be the length (`set_writeRead_iff`).
-/

namespace LvInterop

open Lib

variable {τ : Type} {width : PtrWidth} {inv : World τ → Prop} {api : MemoryApi τ}

/-! ## the contract -/

/-- The string of `h` lies inside its block. -/
def LStr.Stored (w : World τ) (h : UHandle) : Prop :=
  ∃ n, w.live h = some n ∧ 4 ≤ n ∧
    4 + (usizeTryFrom (LStr.sizeField ⟨w.addr h, (w.master h).next⟩ w)).getD 0 ≤ n

/-- The handle reads back as `v`, and since the manager left `w₁` no byte
outside its block was written. -/
def LStr.Holds (v : List UInt8) (w₁ : World τ) (h : UHandle) (w' : World τ) : Prop :=
  (∃ l_str, h.asRef w' = .ok l_str ∧ LStr.asSlice l_str w' = v ∧
    LStr.size l_str = LStr.sizeWithData v) ∧
  w'.live h = some (LStr.sizeWithData v) ∧
  ∀ i, i < w'.addr h ∨ w'.addr h + LStr.sizeWithData v ≤ i → w'.mem i = w₁.mem i

/-- What writing `v` to the string of `h` promises for the way the call ended. -/
structure LStrHandle.WriteRead (api : MemoryApi τ) (h : UHandle) (v : List UInt8) (w : World τ)
    (r : Outcome LVInteropError Unit × World τ) : Prop where
  of_ok : r.1 = .ok () → LStr.Holds v (api.setHandleSize h (LStr.sizeWithData v) w).2 h r.2
  of_err : ∀ e, r.1 = .err e → ∀ l_str, h.asRef w = .ok l_str →
    h.asRef r.2 = .ok ⟨l_str.addr, (r.2.master h).next⟩ ∧
    LStr.asSlice l_str r.2 = LStr.asSlice l_str w
  others : w.SameBut r.2 h

/-- What making a string of `v` promises for the way the call ended. -/
structure LStrOwned.WriteRead (api : MemoryApi τ) (v : List UInt8) (w : World τ)
    (r : Outcome LVInteropError UHandle × World τ) : Prop where
  of_ok : ∀ h, r.1 = .ok h → LStr.Holds v
    (api.setHandleSize h (LStr.sizeWithData v) (api.newHandle 0 w).2).2 h r.2
  others : ∀ k, w.Live k → w.Kept r.2 k

/-- The length of the data slice in the reference `set` writes through: the
word behind the master pointer, once the block was resized. -/
def LStrHandle.sliceLen (api : MemoryApi τ) (h : UHandle) (v : List UInt8) (w : World τ) : Nat :=
  ((api.setHandleSize h (LStr.sizeWithData v) w).2.master h).next

/-- The manager refuses the size `set` asks for. -/
def LStrHandle.Refused (api : MemoryApi τ) (h : UHandle) (v : List UInt8) (w : World τ) : Prop :=
  (api.setHandleSize h (LStr.sizeWithData v) w).1 ≠ .SUCCESS

/-! ## after a refusal -/

/-- The size field of a string that was not touched. -/
theorem LStr.sizeField_of_kept {w w' : World τ} {h : UHandle} {l_str : FatPtr}
    (hs : LStr.Stored w h) (hk : w.Kept w' h) (hl : l_str.addr = w.addr h) :
    LStr.sizeField l_str w' = LStr.sizeField l_str w := by
  obtain ⟨n, hn, h4, -⟩ := hs
  rw [LStr.sizeField, LStr.sizeField, hl, ← take_readBytes w'.mem h4, hk.bytes n hn,
    take_readBytes w.mem h4]

/-- A string inside its block reads the same wherever the block is kept. -/
theorem LStr.asSlice_of_kept {w w' : World τ} {h : UHandle} {l_str : FatPtr}
    (hs : LStr.Stored w h) (hk : w.Kept w' h) (hl : l_str.addr = w.addr h) :
    LStr.asSlice l_str w' = LStr.asSlice l_str w := by
  have hsize := LStr.sizeField_of_kept hs hk hl
  obtain ⟨n, hn, h4, hlen⟩ := hs
  have hbytes := hk.bytes n hn
  have hfield : LStr.sizeField l_str w = LStr.sizeField ⟨w.addr h, (w.master h).next⟩ w := by
    rw [LStr.sizeField, LStr.sizeField, hl]
  have hdata := congrArg (List.drop 4) hbytes
  rw [drop_readBytes _ h4, drop_readBytes _ h4] at hdata
  have hfit : (usizeTryFrom (LStr.sizeField l_str w)).getD 0 ≤ n - 4 := by
    rw [hfield]
    omega
  rw [LStr.asSlice, LStr.asSlice, hsize, hl, ← take_readBytes w'.mem hfit, hdata,
    take_readBytes w.mem hfit]

/-- A handle whose block is kept still dereferences to it. -/
theorem UHandle.asRef_of_kept {w w' : World τ} {h : UHandle} {l_str : FatPtr} (hl : w.Live h)
    (hk : w.Kept w' h) (hr : h.asRef w = .ok l_str) :
    l_str.addr = w.addr h ∧ h.asRef w' = .ok ⟨l_str.addr, (w'.master h).next⟩ := by
  obtain ⟨n, hn⟩ := Option.ne_none_iff_exists'.mp hl
  unfold UHandle.asRef at hr ⊢
  rw [hk.addr n hn]
  split_ifs at hr ⊢
  have hp := Except.ok.inj hr
  exact ⟨by rw [← hp], by rw [← hp]⟩

/-! ## `set` -/

namespace LStrHandle

/-- What `fill` leaves in a block of the right size. -/
theorem holds_fill (hapi : api.Lawful width inv) {h : UHandle} {v : List UInt8} {w₁ : World τ}
    (hv : v.length < 2 ^ 31) (hu : (⟨h, w₁⟩ : Slot τ).Usable inv)
    (hlive : w₁.live h = some (LStr.sizeWithData v)) :
    LStr.Holds v w₁ h (fill v ⟨w₁.addr h, (w₁.master h).next⟩ w₁) ↔
      (w₁.master h).next = v.length := by
  have hu' : (⟨h, fill v ⟨w₁.addr h, (w₁.master h).next⟩ w₁⟩ : Slot τ).Usable inv :=
    ⟨fill_inv hapi hu.inv, hu.live, hu.addr⟩
  have href := UHandle.asRef_of_usable hapi hu'
  constructor
  · rintro ⟨⟨l_str, hl, -, hsize⟩, -⟩
    have hp := Except.ok.inj (href.symm.trans hl)
    have hsum : 4 + (w₁.master h).next = 4 + v.length := by
      rw [← hp] at hsize
      exact hsize
    omega
  · intro hn
    refine ⟨⟨_, href, ?_, ?_⟩, hlive, fun i hi => fill_mem_of_out hi⟩
    · exact asSlice_fill hv _ _ w₁ rfl (Nat.le_of_eq hn.symm)
    · simp [LStr.size, LStr.sizeWithData, hn]

/-- **`set` keeps its contract exactly when** the manager refuses the size or
the word behind the master pointer is the length of the input. -/
theorem set_writeRead_iff (hapi : api.Lawful width inv) {h : UHandle} {v : List UInt8}
    {w : World τ} (hu : (⟨h, w⟩ : Slot τ).Usable inv) (hs : LStr.Stored w h)
    (hv : v.length < 2 ^ 31) :
    WriteRead api h v w (set (.ok api) h v w) ↔ Refused api h v w ∨ sliceLen api h v w = v.length := by
  have hothers := ((set_effect hapi v hu.inv).confined_of_usable hapi hu).others
  obtain ⟨s, w', hr, -, ⟨hne, hsame, e, hrun⟩ | ⟨rfl, -, hg, hu', hrun⟩⟩ :=
    set_cases hapi h v hu.inv
  · refine ⟨fun _ => .inl (by rw [Refused, hr]; exact hne), fun _ => ⟨?_, ?_, hothers⟩⟩
    · rw [hrun]
      exact fun hc => by cases hc
    · rw [hrun]
      intro e' _ l_str hl
      obtain ⟨haddr, href⟩ := UHandle.asRef_of_kept hu.live (hsame h) hl
      exact ⟨href, LStr.asSlice_of_kept hs (hsame h) haddr⟩
  · have hholds := holds_fill hapi hv hu' hg.live
    have hlen : sliceLen api h v w = (w'.master h).next := by rw [sliceLen, hr]
    have hok : ¬ Refused api h v w := by simp [Refused, hr]
    rw [hlen, or_iff_right hok, ← hholds]
    constructor
    · intro hwr
      have := hwr.of_ok (by rw [hrun])
      rwa [hr, hrun] at this
    · intro hwr
      refine ⟨fun _ => ?_, ?_, hothers⟩
      · rw [hr, hrun]
        exact hwr
      · rw [hrun]
        exact fun e hc => by cases hc

end LStrHandle

/-! ## `from_data` -/

namespace LStrOwned

/-- `from_data` on a fresh handle is `set` on it. -/
theorem fromData_of_ne {h : UHandle} {v : List UInt8} {w w₁ : World τ} (hne : h ≠ .null)
    (hn : api.newHandle 0 w = (h, w₁)) :
    fromData (.ok api) v w =
      OwnedUHandle.wrap ((LStrHandle.set (.ok api) h v w₁).1,
        ⟨h, (LStrHandle.set (.ok api) h v w₁).2⟩) :=
  OwnedUHandle.newUnsized_of_ne hne hn

/-- `set` on a fresh handle keeps the blocks that there were. -/
theorem kept_of_fresh (hapi : api.Lawful width inv) (v : List UInt8) {w : World τ} {s : Slot τ}
    (hf : OwnedUHandle.Fresh api inv w s) {k : UHandle} (hk : w.Live k) :
    w.Kept (LStrHandle.set (.ok api) s.handle v s.world).2 k := by
  have hset := (LStrHandle.set_effect hapi v hf.usable.inv).confined_of_usable hapi hf.usable
  exact (hf.granted.others k (hf.ne_of_live hk)).trans (hset.others k (hf.ne_of_live hk))

/-- **`from_data` keeps its contract exactly when** the manager has no handle,
refuses the size, or the word behind the new master pointer is the length. -/
theorem fromData_writeRead_iff (hapi : api.Lawful width inv) {v : List UInt8} {w : World τ}
    (hinv : inv w) (hv : v.length < 2 ^ 31) :
    WriteRead api v w (fromData (.ok api) v w) ↔
      (api.newHandle 0 w).1 = .null ∨
      LStrHandle.Refused api (api.newHandle 0 w).1 v (api.newHandle 0 w).2 ∨
      LStrHandle.sliceLen api (api.newHandle 0 w).1 v (api.newHandle 0 w).2 = v.length := by
  obtain ⟨w₁, hn, hinv₁, hsame, hrun⟩ | ⟨⟨h, w₁⟩, hf, hrun⟩ :=
    OwnedUHandle.newUnsized_cases hapi hinv
      (Slot.onWorld fun handle => LStrHandle.set (.ok api) handle v)
  · have hfd : fromData (.ok api) v w = (.err (.internalError .handleCreationFailed), w₁) := hrun
    refine ⟨fun _ => .inl (by rw [hn]), fun _ => ⟨?_, fun k _ => ?_⟩⟩
    · rw [hfd]
      exact fun h hc => by cases hc
    · rw [hfd]
      exact hsame k
  · have hn : api.newHandle 0 w = (h, w₁) := hf.new
    have hne : h ≠ .null := hf.ne_null
    have hfd := fromData_of_ne (v := v) hne hn
    have hothers : ∀ k, w.Live k → w.Kept (LStrHandle.set (.ok api) h v w₁).2 k := fun _ hk =>
      kept_of_fresh hapi v hf hk
    rw [hn]
    obtain ⟨s, w₂, hr, -, ⟨hst, -, e, hset⟩ | ⟨rfl, -, hg, hu₂, hset⟩⟩ :=
      LStrHandle.set_cases hapi h v hf.usable.inv
    · rw [hset] at hfd hothers
      refine ⟨fun _ => .inr (.inl (by rw [LStrHandle.Refused, hr]; exact hst)), fun _ => ⟨?_, ?_⟩⟩
      · rw [hfd]
        exact fun h' hc => by cases hc
      · rw [hfd]
        exact hothers
    · have hholds := LStrHandle.holds_fill hapi hv hu₂ hg.live
      have hlen : LStrHandle.sliceLen api h v w₁ = (w₂.master h).next := by
        rw [LStrHandle.sliceLen, hr]
      have hok : ¬ LStrHandle.Refused api h v w₁ := by simp [LStrHandle.Refused, hr]
      rw [hset] at hfd hothers
      rw [or_iff_right hne, or_iff_right hok, hlen, ← hholds]
      constructor
      · intro hwr
        have := hwr.of_ok h (by rw [hfd]; rfl)
        rwa [hn, hr, hfd] at this
      · intro hwr
        refine ⟨fun h' hh => ?_, by rw [hfd]; exact hothers⟩
        rw [hfd] at hh
        obtain rfl := Outcome.ok.inj hh
        rw [hn, hr, hfd]
        exact hwr

end LStrOwned

/-! ## the contract as a whole, and where it fails -/

/-- **Writing a string and reading it back**: for the `set` of every handle
that holds a string, and for `from_data`. -/
theorem writeRead_iff (hapi : api.Lawful width inv) {v : List UInt8} {w : World τ} (hinv : inv w)
    (hv : v.length < 2 ^ 31) :
    (∀ h, (⟨h, w⟩ : Slot τ).Usable inv → LStr.Stored w h →
      (LStrHandle.WriteRead api h v w (LStrHandle.set (.ok api) h v w) ↔
        LStrHandle.Refused api h v w ∨ LStrHandle.sliceLen api h v w = v.length)) ∧
    (LStrOwned.WriteRead api v w (LStrOwned.fromData (.ok api) v w) ↔
      (api.newHandle 0 w).1 = .null ∨
      LStrHandle.Refused api (api.newHandle 0 w).1 v (api.newHandle 0 w).2 ∨
      LStrHandle.sliceLen api (api.newHandle 0 w).1 v (api.newHandle 0 w).2 = v.length) :=
  ⟨fun _ hu hs => LStrHandle.set_writeRead_iff hapi hu hs hv,
    LStrOwned.fromData_writeRead_iff hapi hinv hv⟩

/-- A process with one string handle that holds the empty string; `word` is
what LabVIEW keeps behind every master pointer. -/
def Bump.withString (word : Nat) : World Bump :=
  (LStrOwned.fromData (.ok (Bump.api .w64)) [] (Bump.start word [])).2

theorem Bump.withString_usable (word : Nat) :
    (⟨⟨1⟩, Bump.withString word⟩ : Slot Bump).Usable Bump.Inv :=
  LStrOwned.fromData_usable (Bump.lawful .w64) (Bump.inv_start word []) rfl

theorem Bump.withString_stored (word : Nat) : LStr.Stored (Bump.withString word) ⟨1⟩ := by
  refine ⟨4, rfl, Nat.le_refl 4, ?_⟩
  have hsize : LStr.sizeField ⟨4096, word⟩ (Bump.withString word) = 0 :=
    LStrHandle.sizeField_fill [] ⟨4096, word⟩ _ _ rfl
  exact Nat.le_of_eq (congrArg (fun s => 4 + (usizeTryFrom s).getD 0) hsize)

theorem writeRead_iff_bump :
    LStrHandle.WriteRead (Bump.api .w64) ⟨1⟩ [7] (Bump.withString 1)
      (LStrHandle.set (.ok (Bump.api .w64)) ⟨1⟩ [7] (Bump.withString 1)) :=
  (((writeRead_iff (Bump.lawful .w64) (Bump.withString_usable 1).inv (by decide)).1 ⟨1⟩
    (Bump.withString_usable 1) (Bump.withString_stored 1)).mpr (.inr rfl))

/-- With a zero behind the master pointer, `set` returns `Ok` and stores the
length of the input but none of its bytes. -/
theorem not_writeRead :
    ¬ LStrHandle.WriteRead (Bump.api .w64) ⟨1⟩ [7] (Bump.withString 0)
      (LStrHandle.set (.ok (Bump.api .w64)) ⟨1⟩ [7] (Bump.withString 0)) := by
  intro hwr
  obtain ⟨⟨l_str, hl, hslice, -⟩, -⟩ := hwr.of_ok rfl
  obtain rfl : _ = l_str := Except.ok.inj hl
  revert hslice
  decide

end LvInterop
