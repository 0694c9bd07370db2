import LvInterop.Effect

/-!
# LvInterop.Bounds

Arrays over whole runs: the elements that the header counts are allocated,
whatever was asked of the array before, and a failed operation leaves every
array as it was.

The slices of `data_as_slice` and `data_as_slice_mut` are as long as the header
says, so this is what keeps them inside the block.
-/

namespace LvInterop

open Lib

variable {τ : Type} {rt : Runtime τ} {inv : World τ → Prop}

/-- The operations that make arrays, other than `new_empty`, and change them. -/
def Op.OnArrays : Op → Prop
  | .resizeArray _ _ _ _ | .copyFromNdarray _ _ _ _ | .setValueUnchecked _ _ _ _ _ | .tryClone _
    | .tryToOwned _ => True
  | _ => False

/-- The elements of the array `h` are inside its block. -/
structure LVArray.InBounds (width : PtrWidth) (D : Nat) (T : NumericArrayResizable) (w : World τ)
    (h : UHandle) (n : Nat) : Prop where
  count : elementCount width D (w.addr h) w ≤ allocatedElements width D T n
  slice : ∀ i < elementCount width D (w.addr h) w,
    elementPtr width D T (w.addr h) i + T.size ≤ w.addr h + n

/-- What a step promises about arrays. -/
structure Bounded (rt : Runtime τ) (op : Op) (m : Machine τ) : Prop where
  within : ∀ h D T, (rt.step op m).types h = some (.lvArray D T) → ∃ n,
    (rt.step op m).world.live h = some n ∧
      LVArray.InBounds rt.width D T (rt.step op m).world h n
  atomic : ∀ e, (rt.run op m).1 = .err e → ∀ h D T, m.types h = some (.lvArray D T) →
    m.world.Unaltered rt.width (rt.step op m).world (m.types h) h

theorem LVArray.Fits.inBounds {width : PtrWidth} {D : Nat} {T : NumericArrayResizable}
    {w : World τ} {h : UHandle} (hf : Fits width D T w h) :
    ∃ n, w.live h = some n ∧ InBounds width D T w h n := by
  obtain ⟨n, hn, hD, hcount⟩ := id hf
  refine ⟨n, hn, hcount, fun i hi => ?_⟩
  obtain ⟨l, hl, hend⟩ := hf.end_le hi
  obtain rfl := Option.some.inj (hn.symm.trans hl)
  exact hend

/-- `new_empty` is not among them. -/
theorem Op.OnArrays.initialises {op : Op} (h : op.OnArrays) (m : Machine τ) :
    op.Initialises rt m := by
  cases op with
  | newEmpty => exact h.elim
  | new | emptyString | fromData | tryClone | tryToOwned | cloneIntoPointer | set | setStr
    | resizeArray | copyFromNdarray | setValueUnchecked | drop => exact trivial

/-- **Bounds and atomicity along every run.** -/
theorem bounded_run (hapi : rt.api.Lawful rt.width inv) {m : Machine τ} (hm : m.Inv inv)
    (ht : m.Typed rt.width inv) (ops : List Op)
    (hops : Along rt.step (fun op m => op.OnArrays ∧ op.Legal rt m) ops m) :
    Along rt.step (Bounded rt) ops m := by
  refine along_of_legal hapi ?_ hm ht ops (hops.imp fun op m h => ⟨h.2, h.1.initialises m⟩)
  intro op m _ ht _ he _ ht'
  refine ⟨fun h D T hty => (ht' h _ hty).2.inBounds, fun e herr h D T hty => ?_⟩
  have hkept := he.kept_of_err herr (ht h _ hty).1.live
  exact ht.unaltered hkept.block

/-- A program that LabVIEW has passed an empty array of bytes. -/
def Bump.withArrayMachine : Machine Bump where
  world := withArray .w64 noElements []
  owned := []
  types h := if h = ⟨1⟩ then some (.lvArray 1 .u8) else none

theorem Bump.withArrayMachine_inv : withArrayMachine.Inv Bump.Inv :=
  ⟨(withArray_usable _ _).inv, List.forall_mem_nil _, List.nodup_nil⟩

theorem Bump.withArrayMachine_typed : withArrayMachine.Typed .w64 Bump.Inv := by
  intro h ty hty
  simp only [withArrayMachine] at hty
  split_ifs at hty with hh
  obtain rfl := Option.some.inj hty
  have hfits : LVArray.Fits .w64 1 .u8 (withArray .w64 noElements []) ⟨1⟩ :=
    ⟨4, rfl, by decide, by decide⟩
  exact hh ▸ ⟨withArray_usable _ _, hfits⟩

theorem bounded_run_bump : Along (Bump.runtime .w64).step (Bounded (Bump.runtime .w64))
    [.resizeArray ⟨1⟩ 1 .u8 ⟨[2], rfl⟩, .setValueUnchecked ⟨1⟩ 1 .u8 1 ⟨[7], rfl⟩, .tryToOwned ⟨1⟩,
      .resizeArray ⟨1⟩ 1 .u8 ⟨[-1], rfl⟩, .copyFromNdarray ⟨2⟩ 1 .u8 reversedView]
    Bump.withArrayMachine := by
  refine bounded_run (Bump.lawful .w64) Bump.withArrayMachine_inv Bump.withArrayMachine_typed _
    ⟨⟨trivial, ?_, trivial⟩, ⟨trivial, ?_, ?_⟩, ⟨trivial, trivial, trivial⟩,
      ⟨trivial, ?_, trivial⟩, ⟨trivial, ?_, ?_⟩, trivial⟩
  · exact fun t ht => (Option.some.inj ht).symm
  · exact fun t ht => (Option.some.inj ht).symm
  · exact ⟨rfl, by decide⟩
  · exact fun t ht => (Option.some.inj ht).symm
  · exact fun t ht => (Option.some.inj ht).symm
  · exact ⟨rfl, rfl⟩

end LvInterop
