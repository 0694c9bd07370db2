import LvInterop.Lib.Memory
import LvInterop.Errors

/-!
# LvInterop.Labview

The LabVIEW side of the interface (`labview.rs`): the memory a process shares
with LabVIEW, the manager functions the crate loads at run time
(`MemoryApi`), and what their documentation promises (`MemoryApi.Lawful`).

The functions are not part of the crate, so they are a parameter of the
model.  A manager may keep any private state `τ` and refuse any request; what
it owes is that a refused request changes nothing and that a granted one
touches only the block of the handle it was given.
-/

namespace LvInterop

open Lib

/-! ## handles and memory -/

/-- A handle as passed by value: the address of a master pointer. -/
structure UHandle where
  raw : Nat
deriving DecidableEq, Repr

/-- The null handle. -/
def UHandle.null : UHandle := ⟨0⟩

/-- The two machine words found at a handle's address: the master pointer,
and whatever LabVIEW keeps behind it.  A pointer to an unsized type is two
words long, so reading one there picks up both. -/
structure Master where
  ptr : Nat
  next : Nat
deriving DecidableEq, Repr

/-- The memory shared with LabVIEW.  `live` is the manager's table: the size of
the block of every handle it knows.  `mgr` is private to the manager. -/
structure World (τ : Type) where
  mem : Mem
  master : UHandle → Master
  live : UHandle → Option Nat
  mgr : τ

namespace World

variable {τ : Type}

/-- The address of the block of `h`. -/
def addr (w : World τ) (h : UHandle) : Nat := (w.master h).ptr

/-- The manager knows `h`. -/
def Live (w : World τ) (h : UHandle) : Prop := w.live h ≠ none

instance (w : World τ) : DecidablePred w.Live := fun h => inferInstanceAs (Decidable (w.live h ≠ none))

/-- The bytes of the block of `h`, if the manager knows it. -/
def block (w : World τ) (h : UHandle) : Option (List UInt8) :=
  (w.live h).map (readBytes w.mem (w.addr h))

/-- Store bytes, as Rust code does through a pointer. -/
def write (w : World τ) (a : Nat) (bs : List UInt8) : World τ :=
  { w with mem := writeBytes w.mem a bs }

@[simp] theorem write_master (w : World τ) (a : Nat) (bs : List UInt8) :
    (w.write a bs).master = w.master := rfl

@[simp] theorem write_live (w : World τ) (a : Nat) (bs : List UInt8) :
    (w.write a bs).live = w.live := rfl

@[simp] theorem write_addr (w : World τ) (a : Nat) (bs : List UInt8) (h : UHandle) :
    (w.write a bs).addr h = w.addr h := rfl

@[simp] theorem write_mem (w : World τ) (a : Nat) (bs : List UInt8) :
    (w.write a bs).mem = writeBytes w.mem a bs := rfl

/-- Blocks of different handles share no byte. -/
def BlocksApart (w : World τ) : Prop :=
  ∀ h k n l, h ≠ k → w.live h = some n → w.live k = some l → Apart (w.addr h) n (w.addr k) l

/-- The table entry and the block of `h` are the same in both worlds. -/
structure Kept (w w' : World τ) (h : UHandle) : Prop where
  live : w'.live h = w.live h
  addr : ∀ n, w.live h = some n → w'.addr h = w.addr h
  bytes : ∀ n, w.live h = some n →
    readBytes w'.mem (w.addr h) n = readBytes w.mem (w.addr h) n

/-- Nothing the manager's table describes has changed. -/
def Same (w w' : World τ) : Prop := ∀ k, Kept w w' k

/-- Nothing but the block of `h` has changed. -/
def SameBut (w w' : World τ) (h : UHandle) : Prop := ∀ k, k ≠ h → Kept w w' k

theorem Kept.refl (w : World τ) (h : UHandle) : Kept w w h :=
  ⟨rfl, fun _ _ => rfl, fun _ _ => rfl⟩

theorem Kept.trans {w₁ w₂ w₃ : World τ} {h : UHandle} (h₁ : Kept w₁ w₂ h) (h₂ : Kept w₂ w₃ h) :
    Kept w₁ w₃ h := by
  refine ⟨h₂.live.trans h₁.live, fun n hn => ?_, fun n hn => ?_⟩
  · have hn₂ : w₂.live h = some n := h₁.live.trans hn
    exact (h₂.addr n hn₂).trans (h₁.addr n hn)
  · have hn₂ : w₂.live h = some n := h₁.live.trans hn
    have hb := h₂.bytes n hn₂
    rw [h₁.addr n hn] at hb
    exact hb.trans (h₁.bytes n hn)

/-- A kept block has the same content. -/
theorem Kept.block {w w' : World τ} {h : UHandle} (hk : Kept w w' h) : w'.block h = w.block h := by
  unfold World.block
  rw [hk.live]
  cases hn : w.live h with
  | none => rfl
  | some n => rw [Option.map_some, Option.map_some, hk.addr n hn, hk.bytes n hn]

/-- Equal blocks have the same size and the same bytes. -/
theorem live_of_block_eq {w w' : World τ} {h h' : UHandle} {n : Nat} (hb : w'.block h' = w.block h)
    (hn : w.live h = some n) : w'.live h' = some n ∧
      readBytes w'.mem (w'.addr h') n = readBytes w.mem (w.addr h) n := by
  rw [block, block, hn, Option.map_some] at hb
  obtain ⟨l, hl, hbytes⟩ := Option.map_eq_some_iff.mp hb
  obtain rfl : l = n := by simpa using congrArg List.length hbytes
  exact ⟨hl, hbytes⟩

theorem Same.refl (w : World τ) : Same w w := fun k => .refl w k

theorem Same.sameBut {w w' : World τ} (hs : Same w w') (h : UHandle) : SameBut w w' h :=
  fun k _ => hs k

theorem SameBut.trans {w₁ w₂ w₃ : World τ} {h : UHandle} (h₁ : SameBut w₁ w₂ h)
    (h₂ : SameBut w₂ w₃ h) : SameBut w₁ w₃ h :=
  fun k hk => (h₁ k hk).trans (h₂ k hk)

theorem Kept.live_iff {w w' : World τ} {h : UHandle} (hk : Kept w w' h) : w'.Live h ↔ w.Live h := by
  unfold Live
  rw [hk.live]

/-- Where the block of `h` is live after a change to it, all blocks stay live. -/
theorem SameBut.live_of_live {w w' : World τ} {h k : UHandle} (hs : SameBut w w' h)
    (hh : w'.Live h) (hk : w.Live k) : w'.Live k := by
  by_cases hkh : k = h
  · rw [hkh]
    exact hh
  · exact (hs k hkh).live_iff.mpr hk

/-- Writing inside the block of `h` changes no other block. -/
theorem sameBut_write {w : World τ} (hw : w.BlocksApart) {h : UHandle} {n a : Nat}
    {bs : List UInt8} (hn : w.live h = some n) (hlo : w.addr h ≤ a)
    (hhi : a + bs.length ≤ w.addr h + n) : SameBut w (w.write a bs) h := by
  intro k hk
  refine ⟨rfl, fun _ _ => rfl, fun l hl => ?_⟩
  exact readBytes_writeBytes_of_apart ((hw h k n l hk.symm hn hl).sub_left hlo hhi)

end World

/-! ## target and element types -/

/-- `target_pointer_width`. -/
inductive PtrWidth where
  | w32
  | w64
deriving DecidableEq, Repr

/-- `usize::MAX`. -/
def PtrWidth.usizeMax : PtrWidth → Nat
  | .w32 => 2 ^ 32 - 1
  | .w64 => 2 ^ 64 - 1

/-- `usize::try_from` on an `i32`, which fits either width unless negative. -/
def usizeTryFrom (v : Int32) : Option Nat := if 0 ≤ v.toInt then some v.toInt.toNat else none

/-- A length that fits an `i32` survives the cast and the conversion back. -/
theorem usizeTryFrom_ofNat {n : Nat} (h : n < 2 ^ 31) : usizeTryFrom (Int32.ofNat n) = some n := by
  have hi : (Int32.ofNat n).toInt = n := Int32.toInt_ofNat_of_lt h
  rw [usizeTryFrom, hi, if_pos (Int.natCast_nonneg n), Int.toNat_natCast]

/-- Size and alignment of the element type a `NumericArrayResize` type code
stands for.  The extended-precision codes have no fixed layout. -/
def typeLayout (typeCode : Int32) : Option (Nat × Nat) :=
  if typeCode = 0x01 ∨ typeCode = 0x05 then some (1, 1)
  else if typeCode = 0x02 ∨ typeCode = 0x06 then some (2, 2)
  else if typeCode = 0x03 ∨ typeCode = 0x07 ∨ typeCode = 0x09 then some (4, 4)
  else if typeCode = 0x04 ∨ typeCode = 0x08 ∨ typeCode = 0x0A then some (8, 8)
  else if typeCode = 0x0C then some (8, 4)
  else if typeCode = 0x0D then some (16, 8)
  else none

/-- An element type that implements `NumericArrayResizable`: its type code, and
its layout, which is the one LabVIEW uses for that code. -/
structure NumericArrayResizable where
  TYPE_CODE : Int32
  size : Nat
  align : Nat
  layout : typeLayout TYPE_CODE = some (size, align)

namespace NumericArrayResizable

def i8 : NumericArrayResizable := ⟨0x01, 1, 1, rfl⟩
def i16 : NumericArrayResizable := ⟨0x02, 2, 2, rfl⟩
def i32 : NumericArrayResizable := ⟨0x03, 4, 4, rfl⟩
def i64 : NumericArrayResizable := ⟨0x04, 8, 8, rfl⟩
def u8 : NumericArrayResizable := ⟨0x05, 1, 1, rfl⟩
def u16 : NumericArrayResizable := ⟨0x06, 2, 2, rfl⟩
def u32 : NumericArrayResizable := ⟨0x07, 4, 4, rfl⟩
def u64 : NumericArrayResizable := ⟨0x08, 8, 8, rfl⟩
def f32 : NumericArrayResizable := ⟨0x09, 4, 4, rfl⟩
def f64 : NumericArrayResizable := ⟨0x0A, 8, 8, rfl⟩

instance : DecidableEq NumericArrayResizable := fun S T =>
  decidable_of_iff (S.TYPE_CODE = T.TYPE_CODE ∧ S.size = T.size ∧ S.align = T.align) <| by
    cases S; cases T; simp

/-- A value of the element type, by its representation in memory. -/
abbrev Val (T : NumericArrayResizable) : Type := { bs : List UInt8 // bs.length = T.size }

theorem layout_pos (T : NumericArrayResizable) : 0 < T.size ∧ 0 < T.align := by
  have h := T.layout
  unfold typeLayout at h
  split_ifs at h <;> simp_all <;> omega

theorem size_pos (T : NumericArrayResizable) : 0 < T.size := T.layout_pos.1

theorem align_pos (T : NumericArrayResizable) : 0 < T.align := T.layout_pos.2

end NumericArrayResizable

/-- Offset of the `data` field of `LVArray<D, T>`: the header is `D` words of
32 bit, followed by padding unless the struct is packed. -/
def dataOffset (width : PtrWidth) (D : Nat) (T : NumericArrayResizable) : Nat :=
  match width with
  | .w32 => 4 * D
  | .w64 => (4 * D + (T.align - 1)) / T.align * T.align

/-- The number of elements a block of `n` bytes has room for. -/
def allocatedElements (width : PtrWidth) (D : Nat) (T : NumericArrayResizable) (n : Nat) : Nat :=
  (n - dataOffset width D T) / T.size

/-- The header ends before the data begins. -/
theorem header_le_dataOffset (width : PtrWidth) (D : Nat) (T : NumericArrayResizable) :
    4 * D ≤ dataOffset width D T := by
  cases width with
  | w32 => exact Nat.le_refl _
  | w64 =>
      have ha := T.align_pos
      have hdiv := Nat.div_add_mod (4 * D + (T.align - 1)) T.align
      have hmod := Nat.mod_lt (4 * D + (T.align - 1)) ha
      have hcomm := Nat.mul_comm T.align ((4 * D + (T.align - 1)) / T.align)
      simp only [dataOffset]
      omega

/-- Elements that are allocated lie inside the block. -/
theorem end_le_of_allocated {width : PtrWidth} {D : Nat} {T : NumericArrayResizable} {n i : Nat}
    (h : i < allocatedElements width D T n) : dataOffset width D T + T.size * (i + 1) ≤ n := by
  have hmul : T.size * (i + 1) ≤ T.size * allocatedElements width D T n :=
    Nat.mul_le_mul_left _ h
  have hdiv : T.size * allocatedElements width D T n ≤ n - dataOffset width D T :=
    Nat.mul_div_le _ _
  have hpos : 0 < T.size * (i + 1) := Nat.mul_pos T.size_pos (Nat.succ_pos i)
  omega

/-! ## the memory manager -/

/-- The functions loaded from LabVIEW.  A `*mut UHandle` argument is passed as
the handle it points to, and the handle found there afterwards is returned
with the status. -/
structure MemoryApi (τ : Type) where
  /-- `DSCheckHandle` -/
  checkHandle : UHandle → World τ → LVStatusCode
  /-- `DSNewHandle` -/
  newHandle : Nat → World τ → UHandle × World τ
  /-- `DSCopyHandle` -/
  copyHandle : UHandle → UHandle → World τ → (LVStatusCode × UHandle) × World τ
  /-- `DSDisposeHandle` -/
  disposeHandle : UHandle → World τ → LVStatusCode × World τ
  /-- `DSSetHandleSize` -/
  setHandleSize : UHandle → Nat → World τ → LVStatusCode × World τ
  /-- `NIGetOneErrorCode`: the bytes of the text found for a code -/
  errorCodeDescription : Int32 → Option (List UInt8)
  /-- `NumericArrayResize`: type code, number of dimensions, handle, elements -/
  numericArrayResize : Int32 → Nat → UHandle → Nat → World τ → (LVStatusCode × UHandle) × World τ

/-- A granted request on `h`: its block has `n` bytes somewhere in memory, and
no other block was touched. -/
structure World.Granted (w w' : World τ) (h : UHandle) (n : Nat) : Prop where
  live : w'.live h = some n
  addr : w'.addr h ≠ 0
  others : w.SameBut w' h

/-- A granted request followed by stores into the granted block. -/
theorem World.Granted.stored {w w' w'' : World τ} {h : UHandle} {n : Nat} (hg : w.Granted w' h n)
    (hs : w'.SameBut w'' h) (hlive : w''.live = w'.live) (hmaster : w''.master = w'.master) :
    w.Granted w'' h n := by
  refine ⟨by rw [hlive, hg.live], ?_, hg.others.trans hs⟩
  rw [World.addr, hmaster]
  exact hg.addr

/-- The part of the block of `h` that still fits in `n` bytes is found at the
front of the block of `h'`. -/
def World.Survives (w w' : World τ) (h h' : UHandle) (n : Nat) : Prop :=
  ∀ old, w.live h = some old →
    readBytes w'.mem (w'.addr h') (min old n) = readBytes w.mem (w.addr h) (min old n)

/-- A block of the size of another that starts with all of it is equal to it. -/
theorem World.Granted.block_eq {w w' : World τ} {h h' : UHandle} {n : Nat} (hn : w.live h = some n)
    (hg : w.Granted w' h' n) (hs : w.Survives w' h h' n) : w'.block h' = w.block h := by
  have hbytes := hs n hn
  rw [Nat.min_self] at hbytes
  rw [World.block, World.block, hg.live, hn, Option.map_some, Option.map_some, hbytes]

/-- The handle a function with a `*mut UHandle` argument works on: the one it
was given, or a new one when it was given null. -/
def World.Target (w : World τ) (h h' : UHandle) : Prop :=
  (h = .null ∧ w.live h' = none) ∨ (h ≠ .null ∧ h' = h ∧ w.Live h)

/-- What the manager documents.  `inv` is the manager's own invariant; it does
not depend on the content of memory, so Rust code that only writes bytes
cannot break it. -/
structure MemoryApi.Lawful (api : MemoryApi τ) (width : PtrWidth) (inv : World τ → Prop) : Prop where
  inv_mem : ∀ {w : World τ} (m : Mem), inv w → inv { w with mem := m }
  apart : ∀ {w : World τ}, inv w → w.BlocksApart
  null : ∀ {w : World τ}, inv w → w.live .null = none
  check : ∀ {w : World τ} {h}, inv w → (api.checkHandle h w = .SUCCESS ↔ w.Live h)
  /-- null, or a fresh handle to an uninitialised block of the requested size -/
  new : ∀ {w w' : World τ} {n h}, inv w → api.newHandle n w = (h, w') → inv w' ∧
    ((h = .null ∧ w.Same w') ∨ (w.live h = none ∧ w.Granted w' h n))
  /-- an error status and no change, or the block becomes `n` bytes -/
  setSize : ∀ {w w' : World τ} {h n s}, inv w → api.setHandleSize h n w = (s, w') → inv w' ∧
    ((s ≠ .SUCCESS ∧ w.Same w') ∨
      (s = .SUCCESS ∧ w.Live h ∧ w.Granted w' h n ∧ w.Survives w' h h n))
  /-- an error status and no change, or the target holds a copy of the source block -/
  copy : ∀ {w w' : World τ} {h src s h'}, inv w →
    api.copyHandle h src w = ((s, h'), w') → inv w' ∧
    ((s ≠ .SUCCESS ∧ h' = h ∧ w.Same w') ∨
      (s = .SUCCESS ∧ w.Target h h' ∧ ∃ n, w.live src = some n ∧ w.Granted w' h' n ∧
        w.Survives w' src h' n))
  /-- a known handle is released, an unknown one is an error -/
  dispose : ∀ {w w' : World τ} {h s}, inv w → api.disposeHandle h w = (s, w') → inv w' ∧
    ((s ≠ .SUCCESS ∧ ¬ w.Live h ∧ w.Same w') ∨
      (s = .SUCCESS ∧ w.Live h ∧ w'.live h = none ∧ w.SameBut w' h))
  /-- an error status and no change, or room for exactly `n` elements behind a header that,
  like the elements that still fit, is left as it was -/
  resize : ∀ {w w' : World τ} {T : NumericArrayResizable} {D h n s h'}, inv w →
    api.numericArrayResize T.TYPE_CODE D h n w = ((s, h'), w') → inv w' ∧
    ((s ≠ .SUCCESS ∧ h' = h ∧ w.Same w') ∨
      (s = .SUCCESS ∧ w.Target h h' ∧ ∃ size, w.Granted w' h' size ∧ 4 * D ≤ size ∧
        allocatedElements width D T size = n ∧ w.Survives w' h h' size))

end LvInterop
