import LvInterop.Effect

/-!
# LvInterop.Separation

Handles are independent: an operation is seen only through its target, a clone
holds what its source holds, and no two owned values hold the same handle.

What is seen through an array is more than its block when the header is not in
the block.  `new_empty` makes such an array on 64-bit targets when it finds
zeros where its new block would begin (`not_separate`); in all other runs the
handles stay independent (`separate_run`).
-/

namespace LvInterop

open Lib

variable {τ : Type} {rt : Runtime τ} {inv : World τ → Prop} {op : Op} {m : Machine τ}

/-- The source of a clone. -/
def Op.source : Op → Option UHandle
  | .tryClone self | .tryToOwned self | .cloneIntoPointer self _ => some self
  | _ => none

/-- What a step promises about the handles it is not about. -/
structure Separate (rt : Runtime τ) (op : Op) (m : Machine τ) : Prop where
  /-- owned values hold live handles, each its own -/
  live : ∀ h ∈ (rt.step op m).owned, (rt.step op m).world.Live h
  nodup : (rt.step op m).owned.Nodup
  /-- a clone leaves its source unchanged and an equal block -/
  clone : ∀ self h, op.source = some self → m.world.Live self → (rt.run op m).1 = .ok h →
    m.world.Unaltered rt.width (rt.step op m).world (m.types self) self ∧
      (rt.step op m).world.block h = m.world.block self
  /-- nothing is seen through any other handle, however the operation ends -/
  frame : ∀ k, m.world.Live k → op.target ≠ some k →
    m.world.Unaltered rt.width (rt.step op m).world (m.types k) k

/-- A successful clone of a live handle leaves an equal block. -/
theorem clone_block (hapi : rt.api.Lawful rt.width inv) (hinv : inv m.world) {self h : UHandle}
    (hs : op.source = some self) (hl : m.world.Live self) (hok : (rt.run op m).1 = .ok h) :
    (rt.step op m).world.block h = m.world.block self := by
  have hcreate : ∀ ty, (m.create ty (self.tryToOwned (.ok rt.api))).1 = .ok h →
      (m.create ty (self.tryToOwned (.ok rt.api))).2.world.block h = m.world.block self := by
    intro ty
    rcases hr : self.tryToOwned (.ok rt.api) m.world with ⟨o, w'⟩
    simp only [Machine.create, hr]
    cases o with
    | ok h' =>
        intro hc
        obtain rfl := Outcome.ok.inj hc
        exact UHandle.tryToOwned_block hapi hinv hl hr
    | err e =>
        intro hc
        cases hc
    | panic =>
        intro hc
        cases hc
  cases op with
  | tryClone src =>
      obtain rfl := Option.some.inj hs
      exact hcreate _ hok
  | tryToOwned src =>
      obtain rfl := Option.some.inj hs
      exact hcreate _ hok
  | cloneIntoPointer src other =>
      obtain rfl := Option.some.inj hs
      rcases hr : src.cloneIntoPointer (.ok rt.api) ⟨other, m.world⟩ with ⟨o, s'⟩
      simp only [Runtime.step, Runtime.run, Machine.onVariable, hr] at hok ⊢
      cases o with
      | ok u =>
          obtain rfl := Outcome.ok.inj hok
          exact UHandle.cloneIntoPointer_block (s := ⟨other, m.world⟩) hapi hinv hr
      | err e => cases hok
      | panic => cases hok
  | new | emptyString | fromData | newEmpty | set | setStr | resizeArray | copyFromNdarray
    | setValueUnchecked | drop => cases hs

/-- **Handles are independent** in every run in which `new_empty` never takes
what it finds at its new block for the header of an empty array. -/
theorem separate_run (hapi : rt.api.Lawful rt.width inv) (hm : m.Inv inv)
    (ht : m.Typed rt.width inv) (ops : List Op)
    (hops : Along rt.step (fun op m => op.Legal rt m ∧ op.Initialises rt m) ops m) :
    Along rt.step (Separate rt) ops m := by
  refine along_of_legal hapi ?_ hm ht ops hops
  intro op m hm ht _ he hm' _
  refine ⟨hm'.live, hm'.nodup, fun self h hs hl hok => ?_, fun k hl htarget => ?_⟩
  · have hblock := clone_block hapi hm.inv hs hl hok
    refine ⟨ht.unaltered ?_, hblock⟩
    obtain hkept | rfl := he.kept_or_returned hok hl
    · exact hkept.block
    · exact hblock
  · exact ht.unaltered (he.kept hl htarget).block

theorem separate_run_bump : Along (Bump.runtime .w64).step (Separate (Bump.runtime .w64))
    [.fromData [7], .tryClone ⟨1⟩, .cloneIntoPointer ⟨1⟩ ⟨2⟩, .set ⟨1⟩ [8, 9], .drop ⟨2⟩]
    (Bump.machine []) := by
  refine separate_run (Bump.lawful .w64) (Bump.machine_inv []) (Bump.machine_typed .w64 []) _
    ⟨⟨⟨trivial, trivial⟩, trivial⟩, ⟨⟨trivial, trivial⟩, trivial⟩, ⟨⟨?_, trivial⟩, trivial⟩,
      ⟨⟨?_, trivial⟩, trivial⟩, ⟨⟨trivial, .head _⟩, trivial⟩, trivial⟩
  · exact fun t ht => ht
  · exact fun t ht => (Option.some.inj ht).symm

/-- `new_empty` finds zeros and leaves a block of no bytes; the next string is
laid out there, and the array has three elements. -/
theorem not_separate : ¬ Along (Bump.runtime .w64).step (Separate (Bump.runtime .w64))
    [.newEmpty 1 .u8, .fromData [97, 98, 99]] (Bump.machine []) := by
  rintro ⟨-, hsep, -⟩
  have hdims := (hsep.frame ⟨1⟩ (Option.some_ne_none _) nofun).dims 1 .u8 rfl
  revert hdims
  decide

end LvInterop
