import LvInterop.Handle

/-!
# LvInterop.LStr

LabVIEW strings (`types/string.rs`): an `i32` size field followed by the data.

`LStr` is unsized, so a reference to one carries the length of its data.  A
reference made from a handle takes that length from the word behind the master
pointer.  Readers (`asSlice`) go by the size field; the copy loop of `set` and
`LStr::size` go by the length in the reference.
-/

namespace LvInterop

open Lib

variable {τ : Type}

/-- `encoding_rs::Encoding`: the two entry points the crate uses. -/
structure Encoding where
  encode : String → List UInt8
  decode : List UInt8 → String

namespace LStr

/-- The `size` field. -/
def sizeField (self : FatPtr) (w : World τ) : Int32 := i32OfBytes (readBytes w.mem self.addr 4)

/-- `LStr::as_slice`: a negative size field is an empty slice. -/
def asSlice (self : FatPtr) (w : World τ) : List UInt8 :=
  readBytes w.mem (self.addr + 4) ((usizeTryFrom (sizeField self w)).getD 0)

/-- `LStr::size`.  Where the sum does not fit a `usize` it is no string's size
in any case, so it is not reduced here. -/
def size (self : FatPtr) : Nat := 4 + self.metadata

/-- `LStr::size_with_data`. -/
def sizeWithData (data : List UInt8) : Nat := 4 + data.length

/-- `LStr::to_rust_string_with_encoding`. -/
def toRustStringWithEncoding (self : FatPtr) (encoding : Encoding) (w : World τ) : String :=
  encoding.decode (asSlice self w)

/-- `LStr::to_rust_string`; `LV_ENCODING` is the encoding of the platform. -/
def toRustString (LV_ENCODING : Encoding) (self : FatPtr) (w : World τ) : String :=
  toRustStringWithEncoding self LV_ENCODING w

end LStr

namespace LStrHandle

/-- The stores of `set` into the resized string: the size field, then the copy
loop, which stops at the end of the input or of the data slice. -/
def fill (value : List UInt8) (l_str : FatPtr) (w : World τ) : World τ :=
  (w.write l_str.addr (i32ToBytes (Int32.ofNat value.length))).write (l_str.addr + 4)
    (value.take l_str.metadata)

/-- `LStrHandle::set`. -/
def set (memoryApi : Result (MemoryApi τ)) (self : UHandle) (value : List UInt8) :
    Exec (World τ) LVInteropError Unit := do
  self.resize memoryApi (LStr.sizeWithData value)
  let l_str ← Exec.tryRead self.asRefMut
  Exec.modify (fill value l_str)

/-- `LStrHandle::set_str_with_encoding`. -/
def setStrWithEncoding (memoryApi : Result (MemoryApi τ)) (self : UHandle) (encoder : Encoding)
    (value : String) : Exec (World τ) LVInteropError Unit :=
  set memoryApi self (encoder.encode value)

/-- `LStrHandle::set_str`. -/
def setStr (memoryApi : Result (MemoryApi τ)) (LV_ENCODING : Encoding) (self : UHandle)
    (value : String) : Exec (World τ) LVInteropError Unit :=
  setStrWithEncoding memoryApi self LV_ENCODING value

end LStrHandle

namespace LStrOwned

/-- `LStrOwned::from_data`. -/
def fromData (memoryApi : Result (MemoryApi τ)) (data : List UInt8) :
    Exec (World τ) LVInteropError UHandle :=
  OwnedUHandle.newUnsized memoryApi (Slot.onWorld fun handle => LStrHandle.set memoryApi handle data)

/-- `LStrOwned::empty_string`. -/
def emptyString (memoryApi : Result (MemoryApi τ)) : Exec (World τ) LVInteropError UHandle :=
  OwnedUHandle.newUnsized memoryApi (Slot.onWorld fun handle => LStrHandle.set memoryApi handle [])

end LStrOwned

/-! ## the stores of `set` -/

variable {width : PtrWidth} {inv : World τ → Prop} {api : MemoryApi τ}

namespace LStrHandle

@[simp] theorem fill_live (v : List UInt8) (p : FatPtr) (w : World τ) :
    (fill v p w).live = w.live := rfl

@[simp] theorem fill_master (v : List UInt8) (p : FatPtr) (w : World τ) :
    (fill v p w).master = w.master := rfl

@[simp] theorem fill_addr (v : List UInt8) (p : FatPtr) (w : World τ) (h : UHandle) :
    (fill v p w).addr h = w.addr h := rfl

theorem fill_inv (hapi : api.Lawful width inv) {v : List UInt8} {p : FatPtr} {w : World τ}
    (hinv : inv w) : inv (fill v p w) :=
  hapi.inv_mem _ (hapi.inv_mem _ hinv)

/-- The size field and the data are one run of bytes. -/
theorem fill_mem (v : List UInt8) (p : FatPtr) (w : World τ) :
    (fill v p w).mem = writeBytes w.mem p.addr
      (i32ToBytes (Int32.ofNat v.length) ++ v.take p.metadata) := by
  rw [← writeBytes_append, length_i32ToBytes]
  rfl

/-- What `fill` stores is no longer than the string it was given. -/
theorem length_fill_le (v : List UInt8) (n : Nat) :
    (i32ToBytes (Int32.ofNat v.length) ++ v.take n).length ≤ LStr.sizeWithData v := by
  rw [List.length_append, length_i32ToBytes, List.length_take, LStr.sizeWithData]
  omega

/-- `fill` stores inside the resized string. -/
theorem fill_mem_of_out {v : List UInt8} {p : FatPtr} {w : World τ} {i : Nat}
    (h : i < p.addr ∨ p.addr + LStr.sizeWithData v ≤ i) : (fill v p w).mem i = w.mem i := by
  rw [fill_mem]
  have hlen := length_fill_le v p.metadata
  exact writeBytes_apply_of_out (by omega)

/-- `fill` on a block of the right size is confined to it. -/
theorem sameBut_fill {v : List UInt8} {w : World τ} (hw : w.BlocksApart) {h : UHandle} {n : Nat}
    (hn : w.live h = some (LStr.sizeWithData v)) : w.SameBut (fill v ⟨w.addr h, n⟩ w) h := by
  have hs : fill v ⟨w.addr h, n⟩ w = w.write (w.addr h)
      (i32ToBytes (Int32.ofNat v.length) ++ v.take n) := by
    rw [World.write, ← fill_mem v ⟨w.addr h, n⟩ w]
    rfl
  rw [hs]
  exact World.sameBut_write hw hn (Nat.le_refl _)
    (Nat.add_le_add_left (length_fill_le v n) _)

/-- The size field after `fill`. -/
theorem sizeField_fill (v : List UInt8) (p q : FatPtr) (w : World τ) (hq : q.addr = p.addr) :
    LStr.sizeField q (fill v p w) = Int32.ofNat v.length := by
  have h4 : 4 ≤ (i32ToBytes (Int32.ofNat v.length) ++ v.take p.metadata).length := by simp
  have hread := readBytes_writeBytes w.mem p.addr
    (i32ToBytes (Int32.ofNat v.length) ++ v.take p.metadata)
  have htake := congrArg (List.take 4) hread
  rw [take_readBytes _ h4, List.take_left' (length_i32ToBytes _)] at htake
  rw [LStr.sizeField, fill_mem, hq, htake, i32OfBytes_i32ToBytes]

/-- A data slice as long as the input receives all of it. -/
theorem asSlice_fill {v : List UInt8} (hv : v.length < 2 ^ 31) (p q : FatPtr) (w : World τ)
    (hq : q.addr = p.addr) (hp : v.length ≤ p.metadata) : LStr.asSlice q (fill v p w) = v := by
  have hread := readBytes_writeBytes w.mem p.addr (i32ToBytes (Int32.ofNat v.length) ++ v)
  have hdrop := congrArg (List.drop 4) hread
  rw [drop_readBytes _ (by simp), List.drop_left' (length_i32ToBytes _), List.length_append,
    length_i32ToBytes, Nat.add_sub_cancel_left] at hdrop
  rw [LStr.asSlice, sizeField_fill v p q w hq, usizeTryFrom_ofNat hv, Option.getD_some, fill_mem,
    List.take_of_length_le hp, hq, hdrop]

/-! ## `set`, case by case -/

/-- `set` returns whatever the manager answers. -/
theorem noPanic_set (memoryApi : Result (MemoryApi τ)) (h : UHandle) (v : List UInt8) :
    (set memoryApi h v).NoPanic := by
  have hresize : (h.resize memoryApi (LStr.sizeWithData v)).NoPanic :=
    (Exec.noPanic_ofExcept memoryApi).bind fun api =>
      (Exec.noPanic_call _).bind fun err => Exec.noPanic_ofExcept _
  exact hresize.bind fun _ => (Exec.noPanic_tryRead _).bind fun _ => Exec.noPanic_modify _

/-- `set` when the manager refuses the new size. -/
theorem set_of_refused {h : UHandle} {v : List UInt8} {w w' : World τ} {s : LVStatusCode}
    (hr : api.setHandleSize h (LStr.sizeWithData v) w = (s, w')) (hs : s ≠ .SUCCESS) :
    ∃ e, set (.ok api) h v w = (.err e, w') := by
  obtain ⟨e, he⟩ := ofExcept_toSpecificResult_of_ne hs
  refine ⟨e, ?_⟩
  unfold set
  refine Exec.bind_of_err ?_
  rw [UHandle.resize_run, hr, he]

/-- `set` when the manager grants the new size. -/
theorem set_of_granted (hapi : api.Lawful width inv) {h : UHandle} {v : List UInt8}
    {w w' : World τ} (hr : api.setHandleSize h (LStr.sizeWithData v) w = (.SUCCESS, w'))
    (hu : (⟨h, w'⟩ : Slot τ).Usable inv) :
    set (.ok api) h v w = (.ok (), fill v ⟨w'.addr h, (w'.master h).next⟩ w') := by
  have hres : h.resize (.ok api) (LStr.sizeWithData v) w = (.ok (), w') := by
    rw [UHandle.resize_run, hr]
    rfl
  have href : (Exec.tryRead h.asRefMut : Exec (World τ) LVInteropError FatPtr) w' =
      (.ok ⟨w'.addr h, (w'.master h).next⟩, w') :=
    Exec.tryRead_of_ok (UHandle.asRef_of_usable hapi hu)
  rw [set, Exec.bind_of_ok hres, Exec.bind_of_ok href, Exec.modify_run]

/-- `set` on any handle: refused without a change, or the live block takes the
new size and is filled. -/
theorem set_cases (hapi : api.Lawful width inv) (h : UHandle) (v : List UInt8) {w : World τ}
    (hinv : inv w) : ∃ s w', api.setHandleSize h (LStr.sizeWithData v) w = (s, w') ∧ inv w' ∧
      ((s ≠ .SUCCESS ∧ w.Same w' ∧ ∃ e, set (.ok api) h v w = (.err e, w')) ∨
        (s = .SUCCESS ∧ w.Live h ∧ w.Granted w' h (LStr.sizeWithData v) ∧
          (⟨h, w'⟩ : Slot τ).Usable inv ∧
          set (.ok api) h v w = (.ok (), fill v ⟨w'.addr h, (w'.master h).next⟩ w'))) := by
  rcases hr : api.setHandleSize h (LStr.sizeWithData v) w with ⟨s, w'⟩
  obtain ⟨hinv', ⟨hs, hsame⟩ | ⟨rfl, hl, hg, -⟩⟩ := hapi.setSize hinv hr
  · exact ⟨s, w', rfl, hinv', .inl ⟨hs, hsame, set_of_refused hr hs⟩⟩
  · have hu : (⟨h, w'⟩ : Slot τ).Usable inv :=
      ⟨hinv', by simp [World.Live, hg.live], hg.addr⟩
    exact ⟨_, w', rfl, hinv', .inr ⟨rfl, hl, hg, hu, set_of_granted hapi hr hu⟩⟩

/-- `set` succeeds when the manager grants the new size. -/
theorem set_ok_iff (hapi : api.Lawful width inv) (h : UHandle) (v : List UInt8) {w : World τ}
    (hinv : inv w) : (set (.ok api) h v w).1 = .ok () ↔
      (api.setHandleSize h (LStr.sizeWithData v) w).1 = .SUCCESS := by
  obtain ⟨st, w', hr, -, ⟨hst, -, e, hrun⟩ | ⟨hst, -, -, -, hrun⟩⟩ := set_cases hapi h v hinv
  · simp [hrun, hr, hst]
  · simp [hrun, hr, hst]

/-- `set` keeps to the block of its handle. -/
theorem set_effect (hapi : api.Lawful width inv) (v : List UInt8) {s : Slot τ}
    (hinv : inv s.world) : s.Effect inv (Slot.onWorld (fun h => set (.ok api) h v) s) := by
  obtain ⟨st, w', -, hinv', ⟨-, hsame, e, hrun⟩ | ⟨-, hl, hg, hu', hrun⟩⟩ :=
    set_cases hapi s.handle v hinv
  · simp only [Slot.onWorld, hrun]
    exact .same hinv' rfl hsame
  · have hgrant := Slot.confined_of_granted hinv' hg
    have hfill := sameBut_fill (n := (w'.master s.handle).next) (hapi.apart hinv') hg.live
    simp only [Slot.onWorld, hrun]
    exact .confined rfl hl (hgrant.trans ⟨fill_inv hapi hinv', rfl, hu'.live, hu'.addr, hfill⟩)

end LStrHandle

/-- `from_data` returns a usable handle. -/
theorem LStrOwned.fromData_usable (hapi : api.Lawful width inv) {data : List UInt8}
    {w w' : World τ} {h : UHandle} (hinv : inv w) (hrun : fromData (.ok api) data w = (.ok h, w')) :
    (⟨h, w'⟩ : Slot τ).Usable inv :=
  OwnedUHandle.newUnsized_usable hapi
    (fun _ hs => (LStrHandle.set_effect hapi data hs.inv).confined_of_usable hapi hs) hinv
    hrun

end LvInterop
