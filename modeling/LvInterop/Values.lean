import LvInterop.Elements
import LvInterop.Lib.Store
import LvInterop.Separation
import LvInterop.WriteRead

/-!
# LvInterop.Values

What handles are for: each stands for a value.  A handle to a sized value
stands for its bytes, a string for its text, an array for its dimensions and
its elements.  `Op.Yields` says, in terms of these values alone, what an
operation that succeeds may leave behind the handle it returns; memory, master
pointers and the manager's table do not occur in it.
-/

namespace LvInterop

open Lib

variable {τ : Type} {width : PtrWidth} {inv : World τ → Prop} {rt : Runtime τ}

/-! ## values -/

/-- An array: as many elements as its dimensions count. -/
structure ArrayValue (width : PtrWidth) (D : Nat) (T : NumericArrayResizable) where
  dims : LVArrayDims D
  elements : List T.Val
  length_eq : elements.length = dims.elementCount width

/-- What a handle stands for. -/
inductive Value (width : PtrWidth) where
  | sized (bytes : List UInt8)
  | lStr (data : List UInt8)
  | lvArray (D : Nat) (T : NumericArrayResizable) (array : ArrayValue width D T)

theorem ArrayValue.ext {D : Nat} {T : NumericArrayResizable} {a b : ArrayValue width D T}
    (hd : a.dims = b.dims) (he : a.elements = b.elements) : a = b := by
  cases a
  cases b
  cases hd
  cases he
  rfl

/-- The array found in memory. -/
def LVArray.value (width : PtrWidth) (D : Nat) (T : NumericArrayResizable) (w : World τ)
    (h : UHandle) : ArrayValue width D T where
  dims := dimSizes D (w.addr h) w
  elements := dataAsSlice width D T (w.addr h) w
  length_eq := length_dataAsSlice _ _

/-- The text found in memory. -/
def LStr.value (w : World τ) (h : UHandle) : List UInt8 :=
  asSlice ⟨w.addr h, (w.master h).next⟩ w

/-- The value found in memory at a type. -/
def HandleTy.value (width : PtrWidth) (w : World τ) (h : UHandle) : HandleTy → Value width
  | .sized => .sized ((w.block h).getD [])
  | .lStr => .lStr (LStr.value w h)
  | .lvArray D T => .lvArray D T (LVArray.value width D T w h)

/-- The values behind the handles a program holds. -/
def Machine.store (width : PtrWidth) (m : Machine τ) : Store UHandle (Value width) := fun h =>
  (m.types h).map fun ty => ty.value width m.world h

/-! ## values and blocks -/

/-- A string inside a block is found in each copy of the block. -/
theorem LStr.Stored.of_block {w w' : World τ} {h h' : UHandle} (hs : Stored w h)
    (hb : w'.block h' = w.block h) : Stored w' h' ∧ LStr.value w' h' = LStr.value w h := by
  obtain ⟨n, hn, h4, hlen⟩ := hs
  obtain ⟨hn', hbytes⟩ := World.live_of_block_eq hb hn
  have hsize : sizeField ⟨w'.addr h', (w'.master h').next⟩ w' =
      sizeField ⟨w.addr h, (w.master h).next⟩ w := by
    rw [sizeField, sizeField, ← take_readBytes w'.mem h4, hbytes, take_readBytes w.mem h4]
  refine ⟨⟨n, hn', h4, hsize ▸ hlen⟩, ?_⟩
  have hdata := readBytes_sub hbytes hlen
  rw [LStr.value, LStr.value, asSlice, asSlice, hsize]
  exact hdata

/-- A handle can be read at the type: an array fits its allocation, and a
string lies in its block. -/
structure HandleTy.Readable (width : PtrWidth) (w : World τ) (h : UHandle) (ty : HandleTy) : Prop where
  wf : ty.Wf width w h
  stored : ty = .lStr → LStr.Stored w h

theorem HandleTy.Readable.of_block {ty : HandleTy} {w w' : World τ} {h h' : UHandle}
    (hr : ty.Readable width w h) (hb : w'.block h' = w.block h) : ty.Readable width w' h' :=
  ⟨hr.wf.of_block hb, fun hty => ((hr.stored hty).of_block hb).1⟩

/-- Equal blocks hold equal values. -/
theorem HandleTy.Readable.value_eq {ty : HandleTy} {w w' : World τ} {h h' : UHandle}
    (hr : ty.Readable width w h) (hb : w'.block h' = w.block h) :
    ty.value width w' h' = ty.value width w h := by
  cases ty with
  | sized => simp only [value, hb]
  | lStr => simp only [value, ((hr.stored rfl).of_block hb).2]
  | lvArray D T =>
      have hf : LVArray.Fits width D T w h := hr.wf
      obtain ⟨n, hn, hD, -⟩ := id hf
      have heq : LVArray.value width D T w' h' = LVArray.value width D T w h :=
        ArrayValue.ext (LVArray.dimSizes_of_block hb hn hD) (hf.dataAsSlice_of_block hb)
      simp only [value, heq]

/-- Every handle held at a type can be read at it. -/
def Machine.Readable (width : PtrWidth) (m : Machine τ) : Prop :=
  ∀ h ty, m.types h = some ty → ty.Readable width m.world h

/-! ## what operations do to values -/

/-- What an operation that returns `h` may leave behind `h`.  An operation on a
variable returns the handle found in it afterwards, which is a new one if the
variable was null. -/
def Op.Yields (rt : Runtime τ) (op : Op) (σ : Store UHandle (Value rt.width)) (h : UHandle)
    (v : Option (Value rt.width)) : Prop :=
  match op with
  | .new value => σ h = none ∧ v = some (.sized value)
  | .emptyString => σ h = none ∧ v = some (.lStr [])
  | .fromData data => σ h = none ∧ v = some (.lStr data)
  | .newEmpty D T => σ h = none ∧
      ∃ array : ArrayValue rt.width D T, array.dims = .newEmpty D ∧ v = some (.lvArray D T array)
  | .tryClone self | .tryToOwned self => σ h = none ∧ v = σ self
  | .cloneIntoPointer self other =>
      (h = other ∧ v = (σ other).bind fun _ => σ self) ∨ (other = .null ∧ σ h = none ∧ v = σ self)
  | .set self value => h = self ∧ v = (σ self).map fun _ => .lStr value
  | .setStr self value => h = self ∧ v = (σ self).map fun _ => .lStr (rt.LV_ENCODING.encode value)
  | .resizeArray self D T new_dims =>
      (h = self ∧ σ self = none ∧ v = none) ∨
      (h = self ∧ ∃ array array' : ArrayValue rt.width D T, σ self = some (.lvArray D T array) ∧
        array'.dims = new_dims ∧ SameFront array'.elements array.elements ∧
        v = some (.lvArray D T array')) ∨
      (self = .null ∧ σ h = none ∧ ∃ array' : ArrayValue rt.width D T, array'.dims = new_dims ∧
        v = some (.lvArray D T array'))
  | .copyFromNdarray self D T view => h = self ∧ ∃ array array' : ArrayValue rt.width D T,
      σ self = some (.lvArray D T array) ∧ array'.dims.Shape view.dim ∧
      array'.elements = (indices view.dim).map view.get ∧ v = some (.lvArray D T array')
  | .setValueUnchecked self D T index value => h = self ∧
      ∃ array array' : ArrayValue rt.width D T, σ self = some (.lvArray D T array) ∧
      array'.dims = array.dims ∧ array'.elements = array.elements.set index value ∧
      v = some (.lvArray D T array')
  | .drop self => h = self ∧ v = none

end LvInterop
