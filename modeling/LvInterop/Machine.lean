import LvInterop.Lib.Run
import LvInterop.Ndarray
import LvInterop.Windows1252

/-!
# LvInterop.Machine

Programs that use handles, as a machine that takes one operation at a time.

The state is the world, the handles held by the `OwnedUHandle` values that are
alive, and the types at which the program holds handles.  The types exist only
in the Rust program: they say what the block of a handle is read as, and no
operation looks at them.
-/

namespace LvInterop

open Lib

variable {τ : Type}

/-- The type a handle points to: a sized value, a string or an array. -/
inductive HandleTy where
  | sized
  | lStr
  | lvArray (D : Nat) (T : NumericArrayResizable)
deriving DecidableEq

/-- What is outside the crate, with the API loaded. -/
structure Runtime (τ : Type) where
  api : MemoryApi τ
  width : PtrWidth
  LV_ENCODING : Encoding
  nd : (D : Nat) → (T : NumericArrayResizable) → Ndarray D T.Val

/-- The state of a program. -/
structure Machine (τ : Type) where
  world : World τ
  owned : List UHandle
  types : UHandle → Option HandleTy

/-- An operation on handles.  An array operation names the type of its array. -/
inductive Op where
  /-- `OwnedUHandle::new` -/
  | new (value : List UInt8)
  /-- `LStrOwned::empty_string` -/
  | emptyString
  /-- `LStrOwned::from_data` -/
  | fromData (data : List UInt8)
  /-- `LVArrayOwned::new_empty` -/
  | newEmpty (D : Nat) (T : NumericArrayResizable)
  /-- `OwnedUHandle::try_clone` -/
  | tryClone (self : UHandle)
  /-- `UHandle::try_to_owned` -/
  | tryToOwned (self : UHandle)
  /-- `UHandle::clone_into_pointer` -/
  | cloneIntoPointer (self other : UHandle)
  /-- `LStrHandle::set` -/
  | set (self : UHandle) (value : List UInt8)
  /-- `LStrHandle::set_str` -/
  | setStr (self : UHandle) (value : String)
  /-- `LVArrayHandle::resize_array` -/
  | resizeArray (self : UHandle) (D : Nat) (T : NumericArrayResizable) (new_dims : LVArrayDims D)
  /-- `LVArrayHandle::copy_from_ndarray` -/
  | copyFromNdarray (self : UHandle) (D : Nat) (T : NumericArrayResizable)
      (array : ArrayView D T.Val)
  /-- `LVArray::set_value_unchecked` -/
  | setValueUnchecked (self : UHandle) (D : Nat) (T : NumericArrayResizable) (index : Nat)
      (value : T.Val)
  /-- `Drop` for an `OwnedUHandle` -/
  | drop (self : UHandle)

namespace Op

/-- The handle an operation works on; a constructor makes its own. -/
def target : Op → Option UHandle
  | .new _ | .emptyString | .fromData _ | .newEmpty _ _ | .tryClone _ | .tryToOwned _ => none
  | .cloneIntoPointer _ h | .set h _ | .setStr h _ | .resizeArray h _ _ _ |
      .copyFromNdarray h _ _ _ | .setValueUnchecked h _ _ _ _ | .drop h => some h

/-- The manager gets a pointer to the handle variable and may store another
handle there. -/
def PassesVariable : Op → Prop
  | .cloneIntoPointer _ _ | .resizeArray _ _ _ _ | .copyFromNdarray _ _ _ _ => True
  | _ => False

end Op

/-! ## steps -/

namespace Machine

/-- Run a constructor; what it returns is owned, at the type `ty`. -/
def create (m : Machine τ) (ty : Option HandleTy) (x : Exec (World τ) LVInteropError UHandle) :
    Outcome LVInteropError UHandle × Machine τ :=
  match x m.world with
  | (.ok h, w) => (.ok h, ⟨w, h :: m.owned, Function.update m.types h ty⟩)
  | (.err e, w) => (.err e, { m with world := w })
  | (.panic, w) => (.panic, { m with world := w })

/-- Run a method on a handle variable; a handle it finds in the variable
afterwards is held at the type `ty`. -/
def onVariable (m : Machine τ) (h : UHandle) (ty : Option HandleTy)
    (x : Exec (Slot τ) LVInteropError Unit) : Outcome LVInteropError UHandle × Machine τ :=
  let r := x ⟨h, m.world⟩
  let types := if r.2.handle = h then m.types else Function.update m.types r.2.handle ty
  (r.1.map fun _ => r.2.handle, ⟨r.2.world, m.owned, types⟩)

/-- Drop an owned value. -/
def release (m : Machine τ) (h : UHandle) (x : Exec (World τ) LVInteropError Unit) :
    Outcome LVInteropError UHandle × Machine τ :=
  let r := x m.world
  (r.1.map fun _ => h, ⟨r.2, m.owned.erase h, Function.update m.types h none⟩)

end Machine

/-- One operation: how it ends, and the state after it. -/
def Runtime.run (rt : Runtime τ) (op : Op) (m : Machine τ) : Outcome LVInteropError UHandle × Machine τ :=
  match op with
  | .new value => m.create (some .sized) (OwnedUHandle.new (.ok rt.api) value)
  | .emptyString => m.create (some .lStr) (LStrOwned.emptyString (.ok rt.api))
  | .fromData data => m.create (some .lStr) (LStrOwned.fromData (.ok rt.api) data)
  | .newEmpty D T =>
      m.create (some (.lvArray D T)) (LVArrayOwned.newEmpty (.ok rt.api) rt.width D T)
  | .tryClone self => m.create (m.types self) (OwnedUHandle.tryClone (.ok rt.api) self)
  | .tryToOwned self => m.create (m.types self) (self.tryToOwned (.ok rt.api))
  | .cloneIntoPointer self other =>
      m.onVariable other (m.types self) (self.cloneIntoPointer (.ok rt.api))
  | .set self value =>
      m.onVariable self none (Slot.onWorld fun h => LStrHandle.set (.ok rt.api) h value)
  | .setStr self value => m.onVariable self none
      (Slot.onWorld fun h => LStrHandle.setStr (.ok rt.api) rt.LV_ENCODING h value)
  | .resizeArray self D T new_dims => m.onVariable self (some (.lvArray D T))
      (LVArrayHandle.resizeArray (.ok rt.api) rt.width D T new_dims)
  | .copyFromNdarray self D T array => m.onVariable self (some (.lvArray D T))
      (LVArrayHandle.copyFromNdarray (.ok rt.api) (rt.nd D T) array)
  | .setValueUnchecked self D T index value => m.onVariable self (some (.lvArray D T))
      (LVArrayHandle.setValueUnchecked rt.width D T index value)
  | .drop self => m.release self (OwnedUHandle.drop (.ok rt.api) self)

/-- The state after one operation. -/
def Runtime.step (rt : Runtime τ) (op : Op) (m : Machine τ) : Machine τ := (rt.run op m).2

/-! ## well-formed states -/

/-- The block of `h` can be read at the type: the header of an array agrees
with its allocation.  Strings and sized values may hold anything. -/
def HandleTy.Wf (width : PtrWidth) (w : World τ) (h : UHandle) : HandleTy → Prop
  | .sized | .lStr => True
  | .lvArray D T => LVArray.Fits width D T w h

theorem HandleTy.Wf.of_block {ty : HandleTy} {width : PtrWidth} {w w' : World τ} {h h' : UHandle}
    (hwf : ty.Wf width w h) (hb : w'.block h' = w.block h) : ty.Wf width w' h' := by
  cases ty with
  | sized => exact trivial
  | lStr => exact trivial
  | lvArray D T => exact LVArray.Fits.of_block hwf hb

/-- Owned values hold live handles, each its own. -/
structure Machine.Inv (inv : World τ → Prop) (m : Machine τ) : Prop where
  inv : inv m.world
  live : ∀ h ∈ m.owned, m.world.Live h
  nodup : m.owned.Nodup

/-- Every handle held at a type can be used at it. -/
def Machine.Typed (width : PtrWidth) (inv : World τ → Prop) (m : Machine τ) : Prop :=
  ∀ h ty, m.types h = some ty → (⟨h, m.world⟩ : Slot τ).Usable inv ∧ ty.Wf width m.world h

/-- What is found through `k` is what was found through it: its block, and, if
it is held as an array, the dimensions and the elements. -/
structure World.Unaltered (width : PtrWidth) (w w' : World τ) (ty : Option HandleTy) (k : UHandle) :
    Prop where
  block : w'.block k = w.block k
  dims : ∀ D T, ty = some (.lvArray D T) →
    LVArray.dimSizes D (w'.addr k) w' = LVArray.dimSizes D (w.addr k) w
  elements : ∀ D T, ty = some (.lvArray D T) →
    LVArray.dataAsSlice width D T (w'.addr k) w' = LVArray.dataAsSlice width D T (w.addr k) w

/-- An array whose header is inside its block changes only with the block. -/
theorem Machine.Typed.unaltered {m : Machine τ} {width : PtrWidth} {inv : World τ → Prop}
    (ht : m.Typed width inv) {w' : World τ} {k : UHandle} (hb : w'.block k = m.world.block k) :
    m.world.Unaltered width w' (m.types k) k := by
  refine ⟨hb, fun D T hty => ?_, fun D T hty => ?_⟩
  · obtain ⟨n, hn, hD, -⟩ := (ht k _ hty).2
    exact LVArray.dimSizes_of_block hb hn hD
  · exact LVArray.Fits.dataAsSlice_of_block (ht k _ hty).2 hb

/-! ## what operations ask for -/

namespace Op

/-- What the caller of an unchecked operation has to know: a store is inside
an array whose header agrees with its allocation, and only owned values are
dropped. -/
def Safe (rt : Runtime τ) (inv : World τ → Prop) (op : Op) (m : Machine τ) : Prop :=
  match op with
  | .copyFromNdarray self D T _ => rt.width = .w64 ∧
      (⟨self, m.world⟩ : Slot τ).Usable inv ∧ LVArray.Fits .w64 D T m.world self
  | .setValueUnchecked self D T index _ =>
      (⟨self, m.world⟩ : Slot τ).Usable inv ∧ LVArray.Fits rt.width D T m.world self ∧
        index < LVArray.elementCount rt.width D (m.world.addr self) m.world
  | .drop self => self ∈ m.owned
  | _ => True

/-- An operation on a handle held at a type is one of that type. -/
def WellTyped (op : Op) (m : Machine τ) : Prop :=
  match op with
  | .cloneIntoPointer self other => ∀ ty, m.types other = some ty → m.types self = some ty
  | .set self _ | .setStr self _ => ∀ ty, m.types self = some ty → ty = .lStr
  | .resizeArray self D T _ | .copyFromNdarray self D T _ | .setValueUnchecked self D T _ _ =>
      ∀ ty, m.types self = some ty → ty = .lvArray D T
  | _ => True

end Op

/-- The handle `DSNewHandle(0)` returns, in the world it leaves. -/
def Runtime.newSlot (rt : Runtime τ) (m : Machine τ) : Slot τ :=
  ⟨(rt.api.newHandle 0 m.world).1, (rt.api.newHandle 0 m.world).2⟩

namespace Op

/-- What the manager answers to the `init_routine` of a constructor, run on the
new handle `s`. -/
def Granted (rt : Runtime τ) (op : Op) (s : Slot τ) : Prop :=
  match op with
  | .emptyString =>
      (rt.api.setHandleSize s.handle (LStr.sizeWithData []) s.world).1 = .SUCCESS
  | .fromData data =>
      (rt.api.setHandleSize s.handle (LStr.sizeWithData data) s.world).1 = .SUCCESS
  | .newEmpty D T => LVArrayHandle.Unchanged rt.width (.newEmpty D) s ∨
      (LVArrayHandle.numericArrayResize D T rt.api
        ((LVArrayDims.newEmpty D).elementCount rt.width) s).1 = .SUCCESS
  | .tryClone self | .tryToOwned self =>
      self.valid (.ok rt.api) s.world = true ∧ (UHandle.copyHandle rt.api self s).1 = .SUCCESS
  | _ => True

/-- Once the manager has given a constructor its handle, it grants what the
constructor asks for next. -/
def Completes (rt : Runtime τ) (op : Op) (m : Machine τ) : Prop :=
  (rt.newSlot m).handle = .null ∨ op.Granted rt (rt.newSlot m)

/-- `new_empty` does not take the bytes it finds at its new block, which has
none, for the header of an empty array. -/
def Initialises (rt : Runtime τ) (op : Op) (m : Machine τ) : Prop :=
  match op with
  | .newEmpty D _ => ¬ LVArrayHandle.Unchanged rt.width (.newEmpty D) (rt.newSlot m)
  | _ => True

end Op

/-! ## an implementation -/

namespace Bump

/-- The small manager, with the encoding of Linux. -/
def runtime (width : PtrWidth) : Runtime Bump where
  api := api width
  width := width
  LV_ENCODING := windows1252Encoding
  nd D T := .contiguous D ⟨List.replicate T.size 0, List.length_replicate⟩

/-- A program that has not done anything yet. -/
def machine (script : List Int32) : Machine Bump := ⟨start 0 script, [], fun _ => none⟩

theorem machine_inv (script : List Int32) : (machine script).Inv Inv :=
  ⟨inv_start 0 script, nofun, List.nodup_nil⟩

theorem machine_typed (width : PtrWidth) (script : List Int32) :
    (machine script).Typed width Inv := nofun

end Bump

end LvInterop
