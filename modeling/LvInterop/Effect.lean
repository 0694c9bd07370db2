import LvInterop.Machine

/-!
# LvInterop.Effect

What a step can do to the manager's table, said once (`Effect`), and that each
operation does one of these things (`run_effect`).  The invariants of whole
runs are derived from the cases of `Effect`, never from the operations.

`lost` is the case that should not be there: `new_unsized` leaves with `?`
between `DSNewHandle` and the owner, and the handle stays live without one.
-/

namespace LvInterop

open Lib

variable {τ : Type}

/-- What a step may do. -/
inductive Effect (rt : Runtime τ) (inv : World τ → Prop) (op : Op) (m : Machine τ) :
    Outcome LVInteropError UHandle × Machine τ → Prop
  /-- nothing changes -/
  | same {o w} (hc : op.Completes rt m) (hop : ∀ h, op ≠ .drop h) (hinv : inv w)
      (hs : m.world.Same w) : Effect rt inv op m (o, { m with world := w })
  /-- the live block of the target changes -/
  | confined {h w} (hc : op.Completes rt m) (hop : ∀ h, op ≠ .drop h)
      (ht : op.target = some h) (hl : m.world.Live h)
      (hcon : (⟨h, m.world⟩ : Slot τ).Confined inv ⟨h, w⟩)
      (hty : op.WellTyped m → m.Typed rt.width inv → ∀ t, m.types h = some t → t.Wf rt.width w h) :
      Effect rt inv op m (.ok h, { m with world := w })
  /-- a new handle is found in the target variable, which was null -/
  | filled {h w ty} (hc : op.Completes rt m) (hpass : op.PassesVariable)
      (ht : op.target = some .null) (hfresh : m.world.live h = none)
      (hu : (⟨h, w⟩ : Slot τ).Usable inv) (ho : m.world.SameBut w h)
      (hty : m.Typed rt.width inv → ∀ t, ty = some t → t.Wf rt.width w h) :
      Effect rt inv op m (.ok h, ⟨w, m.owned, Function.update m.types h ty⟩)
  /-- a new handle is returned in its owner -/
  | made {h w ty} (hc : op.Completes rt m) (ht : op.target = none)
      (hfresh : m.world.live h = none) (hu : (⟨h, w⟩ : Slot τ).Usable inv)
      (ho : m.world.SameBut w h)
      (hty : op.Initialises rt m → m.Typed rt.width inv → ∀ t, ty = some t → t.Wf rt.width w h) :
      Effect rt inv op m (.ok h, ⟨w, h :: m.owned, Function.update m.types h ty⟩)
  /-- a new handle is left without an owner -/
  | lost {o h w} (hc : ¬ op.Completes rt m) (ht : op.target = none)
      (hfresh : m.world.live h = none) (hu : (⟨h, w⟩ : Slot τ).Usable inv)
      (ho : m.world.SameBut w h) : Effect rt inv op m (o, { m with world := w })
  /-- a handle is disposed of with its owner -/
  | dropped {h w} (hop : op = .drop h) (hmem : h ∈ m.owned) (hinv : inv w)
      (hgone : w.live h = none) (ho : m.world.SameBut w h) :
      Effect rt inv op m (.ok h, ⟨w, m.owned.erase h, Function.update m.types h none⟩)

variable {rt : Runtime τ} {inv : World τ → Prop} {op : Op} {m : Machine τ}

/-! ## constructors -/

/-- The fresh handle is the one `newSlot` describes. -/
theorem Runtime.newSlot_of_fresh {s : Slot τ} (hf : OwnedUHandle.Fresh rt.api inv m.world s) :
    rt.newSlot m = s := by
  rw [newSlot, hf.new]

/-- A constructor over `new_unsized`. -/
theorem create_effect (hapi : rt.api.Lawful rt.width inv) (hinv : inv m.world) {ty : Option HandleTy}
    {init : Exec (Slot τ) LVInteropError Unit} (ht : op.target = none)
    (hinit : ∀ s : Slot τ, s.Usable inv → s.Effect inv (init s))
    (hok : ∀ s : Slot τ, s.Usable inv → ((init s).1 = .ok () ↔ op.Granted rt s))
    (hty : op.Initialises rt m → m.Typed rt.width inv → ∀ s s', OwnedUHandle.Fresh rt.api inv m.world s →
      init s = (.ok (), s') → ∀ t, ty = some t → t.Wf rt.width s'.world s'.handle) :
    Effect rt inv op m (m.create ty (OwnedUHandle.newUnsized (.ok rt.api) init)) := by
  have hop : ∀ h, op ≠ .drop h := by
    rintro h rfl
    cases ht
  obtain ⟨w', hn, hinv', hsame, hrun⟩ | ⟨s, hf, hrun⟩ := OwnedUHandle.newUnsized_cases hapi hinv init
  · have hnull : (rt.newSlot m).handle = .null := by rw [Runtime.newSlot, hn]
    rw [Machine.create, hrun]
    exact .same (.inl hnull) hop hinv' hsame
  · have hcon := (hinit s hf.usable).confined_of_usable hapi hf.usable
    have hiff : op.Completes rt m ↔ (init s).1 = .ok () := by
      rw [Op.Completes, Runtime.newSlot_of_fresh hf, or_iff_right hf.ne_null, hok s hf.usable]
    rcases hi : init s with ⟨o, s'⟩
    rw [hi] at hcon hrun hiff
    have hh : s'.handle = s.handle := hcon.handle
    have hfresh : m.world.live s'.handle = none := hh ▸ hf.unknown
    have hothers : m.world.SameBut s'.world s'.handle :=
      hh ▸ hf.granted.others.trans hcon.others
    cases o with
    | ok u =>
        rw [Machine.create, hrun]
        exact .made (hiff.mpr rfl) ht hfresh hcon.usable hothers
          fun hini htyped => hty hini htyped s s' hf hi
    | err e =>
        rw [Machine.create, hrun]
        exact .lost (fun h => nomatch hiff.mp h) ht hfresh hcon.usable hothers
    | panic =>
        rw [Machine.create, hrun]
        exact .lost (fun h => nomatch hiff.mp h) ht hfresh hcon.usable hothers

/-! ## handle variables -/

/-- A method on a handle variable. -/
theorem onVariable_effect (hapi : rt.api.Lawful rt.width inv) {h : UHandle} {ty : Option HandleTy}
    {x : Exec (Slot τ) LVInteropError Unit} {o : Outcome LVInteropError Unit} {s' : Slot τ}
    (hc : op.Completes rt m) (hop : ∀ h, op ≠ .drop h) (ht : op.target = some h)
    (hrun : x ⟨h, m.world⟩ = (o, s')) (he : (⟨h, m.world⟩ : Slot τ).Effect inv (o, s'))
    (hpass : s'.handle = h ∨ op.PassesVariable)
    (hkeep : op.WellTyped m → m.Typed rt.width inv → ∀ t, m.types h = some t → s'.handle = h →
      t.Wf rt.width s'.world s'.handle)
    (hfill : m.Typed rt.width inv → ∀ t, ty = some t → h = .null → s'.handle ≠ .null →
      t.Wf rt.width s'.world s'.handle) :
    Effect rt inv op m (m.onVariable h ty x) := by
  simp only [Machine.onVariable, hrun]
  obtain ⟨h', w'⟩ := s'
  cases he with
  | same hinv hh hs =>
      rw [if_pos hh]
      exact .same hc hop hinv hs
  | confined hok hl hcon =>
      obtain rfl : h' = h := hcon.handle
      obtain rfl : o = .ok () := hok
      rw [if_pos rfl]
      exact .confined hc hop ht hl hcon fun hwt htyped t hth => hkeep hwt htyped t hth rfl
  | filled hok hnull hfresh hu ho =>
      obtain rfl : h = .null := hnull
      obtain rfl : o = .ok () := hok
      have hne : h' ≠ .null := UHandle.ne_null_of_live hapi hu.inv hu.live
      rw [if_neg hne]
      exact .filled hc (hpass.resolve_left hne) ht hfresh hu ho
        fun htyped t htt => hfill htyped t htt rfl hne

/-- A method on a handle variable that holds an array. -/
theorem onVariable_effect_of_usable (hapi : rt.api.Lawful rt.width inv) {h : UHandle}
    {D : Nat} {T : NumericArrayResizable} {x : Exec (Slot τ) LVInteropError Unit}
    (hc : op.Completes rt m) (hop : ∀ h, op ≠ .drop h) (ht : op.target = some h)
    (hwt : op.WellTyped m → ∀ t, m.types h = some t → t = .lvArray D T)
    (hu : (⟨h, m.world⟩ : Slot τ).Usable inv)
    (hx : (⟨h, m.world⟩ : Slot τ).Effect inv (x ⟨h, m.world⟩) ∧
      LVArray.Fits rt.width D T (x ⟨h, m.world⟩).2.world h) :
    Effect rt inv op m (m.onVariable h (some (.lvArray D T)) x) := by
  obtain ⟨he, hfits⟩ := hx
  have hh := (he.confined_of_usable hapi hu).handle
  refine onVariable_effect hapi hc hop ht rfl he (.inl hh) ?_ ?_
  · intro hop _ t hth _
    rw [hwt hop t hth, hh]
    exact hfits
  · rintro - t - rfl -
    exact absurd rfl (UHandle.ne_null_of_live hapi hu.inv hu.live)

/-! ## each operation -/

/-- `from_data`, and `empty_string`, which is `from_data` of nothing. -/
theorem fromData_effect (hapi : rt.api.Lawful rt.width inv) (hinv : inv m.world) (v : List UInt8)
    (ht : op.target = none) (hg : ∀ s, op.Granted rt s ↔ (Op.fromData v).Granted rt s) :
    Effect rt inv op m (m.create (some .lStr) (LStrOwned.fromData (.ok rt.api) v)) := by
  refine create_effect hapi hinv ht ?_ ?_ ?_
  · exact fun s hs => LStrHandle.set_effect hapi v hs.inv
  · exact fun s hs => (LStrHandle.set_ok_iff hapi s.handle v hs.inv).trans (hg s).symm
  · rintro - - s s' - - t ht
    obtain rfl := Option.some.inj ht
    exact trivial

theorem newEmpty_effect (hapi : rt.api.Lawful rt.width inv) (hinv : inv m.world) (D : Nat)
    (T : NumericArrayResizable) :
    Effect rt inv (.newEmpty D T) m (rt.run (.newEmpty D T) m) := by
  refine create_effect hapi hinv rfl ?_ ?_ ?_
  · exact fun s hs => LVArrayHandle.resizeArray_effect hapi T (.newEmpty D) hs.inv
  · exact fun s hs => LVArrayHandle.resizeArray_ok_iff hapi T (.newEmpty D) hs
  · intro hini _ s s' hf hrun t ht
    obtain rfl := Option.some.inj ht
    rw [Op.Initialises, Runtime.newSlot_of_fresh hf] at hini
    exact LVArrayHandle.resizeArray_fits_of_ok hapi hf.usable.inv hini hrun

/-- `try_clone` and `try_to_owned`. -/
theorem clone_effect (hapi : rt.api.Lawful rt.width inv) (hinv : inv m.world) (src : UHandle)
    (ht : op.target = none) (hg : ∀ s, op.Granted rt s ↔ (Op.tryToOwned src).Granted rt s) :
    Effect rt inv op m (m.create (m.types src) (src.tryToOwned (.ok rt.api))) := by
  refine create_effect hapi hinv ht ?_ ?_ ?_
  · exact fun s hs => UHandle.cloneIntoPointer_effect hapi src hs.inv
  · exact fun s hs => UHandle.cloneIntoPointer_ok_iff.trans (hg s).symm
  · intro _ htyped s s' hf hrun t ht
    obtain ⟨husrc, hwf⟩ := htyped src t ht
    have hkept := hf.granted.others src (hf.ne_of_live husrc.live)
    have hblock := UHandle.cloneIntoPointer_block hapi hf.usable.inv hrun
    exact hwf.of_block (hblock.trans hkept.block)

theorem cloneIntoPointer_effect (hapi : rt.api.Lawful rt.width inv) (hinv : inv m.world)
    (src other : UHandle) :
    Effect rt inv (.cloneIntoPointer src other) m (rt.run (.cloneIntoPointer src other) m) := by
  rcases hrun : src.cloneIntoPointer (.ok rt.api) ⟨other, m.world⟩ with ⟨o, s'⟩
  have he := UHandle.cloneIntoPointer_effect (s := ⟨other, m.world⟩) hapi src hinv
  rw [hrun] at he
  -- the variable is as it was, or holds what the source holds
  have hwf : ∀ t : HandleTy, (⟨other, m.world⟩ : Slot τ).world.Same s'.world ∧ s'.handle = other ∨
      (t.Wf rt.width m.world src → t.Wf rt.width s'.world s'.handle) := by
    intro t
    obtain ⟨s₁, -, ⟨e, hr, hh, hsame⟩ | ⟨hr, -, n, hn, -, hg, hsurv⟩⟩ :=
      UHandle.cloneIntoPointer_cases (s := ⟨other, m.world⟩) hapi src hinv
    · obtain rfl := (Prod.mk.inj (hr.symm.trans hrun)).2
      exact .inl ⟨hsame, hh⟩
    · obtain rfl := (Prod.mk.inj (hr.symm.trans hrun)).2
      exact .inr fun hwf => hwf.of_block (hg.block_eq hn hsurv)
  refine onVariable_effect hapi (.inr trivial) nofun rfl hrun he (.inr trivial) ?_ ?_
  · intro hwt htyped t hth _
    obtain ⟨hsame, hh⟩ | himp := hwf t
    · rw [hh]
      exact (htyped other t hth).2.of_block (hsame other).block
    · exact himp (htyped src t (hwt t hth)).2
  · intro htyped t ht hnull hne
    obtain ⟨-, hh⟩ | himp := hwf t
    · exact absurd (hh.trans hnull) hne
    · exact himp (htyped src t ht).2

/-- `set`, and `set_str`, which is `set` of the encoded text. -/
theorem set_effect (hapi : rt.api.Lawful rt.width inv) (hinv : inv m.world) {h : UHandle}
    (v : List UInt8) (hc : op.Completes rt m) (hop : ∀ h, op ≠ .drop h) (ht : op.target = some h)
    (hwt : op.WellTyped m → ∀ t, m.types h = some t → t = .lStr) :
    Effect rt inv op m
      (m.onVariable h none (Slot.onWorld fun h => LStrHandle.set (.ok rt.api) h v)) := by
  refine onVariable_effect hapi hc hop ht rfl (LStrHandle.set_effect hapi v hinv) (.inl rfl) ?_ nofun
  intro hop _ t hth _
  rw [hwt hop t hth]
  exact trivial

theorem resizeArray_effect (hapi : rt.api.Lawful rt.width inv) (hinv : inv m.world) (h : UHandle)
    (D : Nat) (T : NumericArrayResizable) (dims : LVArrayDims D) :
    Effect rt inv (.resizeArray h D T dims) m (rt.run (.resizeArray h D T dims) m) := by
  rcases hrun : LVArrayHandle.resizeArray (.ok rt.api) rt.width D T dims ⟨h, m.world⟩ with ⟨o, s'⟩
  have he := LVArrayHandle.resizeArray_effect (s := ⟨h, m.world⟩) hapi T dims hinv
  rw [hrun] at he
  have hfits := LVArrayHandle.resizeArray_same_or_fits (s := ⟨h, m.world⟩) hapi T dims hinv hrun
  refine onVariable_effect hapi (.inr trivial) nofun rfl hrun he (.inr trivial) ?_ ?_
  · intro hwt htyped t hth hh
    obtain ⟨-, hsame⟩ | hf := hfits
    · rw [hh]
      exact (htyped h t hth).2.of_block (hsame h).block
    · rw [hwt t hth]
      exact hf
  · intro _ t ht hnull hne
    obtain rfl := Option.some.inj ht
    obtain ⟨hh, -⟩ | hf := hfits
    · exact absurd (hh.trans hnull) hne
    · exact hf

/-- **Each operation has one of the effects.** -/
theorem run_effect (hapi : rt.api.Lawful rt.width inv) (hm : m.Inv inv) (hsafe : op.Safe rt inv m) :
    Effect rt inv op m (rt.run op m) := by
  have hinv := hm.inv
  cases op with
  | new value =>
      obtain ⟨w', hinv', ⟨hsame, hrun⟩ | ⟨h, hfresh, hu, ho, hrun⟩⟩ :=
        OwnedUHandle.new_cases hapi hinv value
      · rw [Runtime.run, Machine.create, hrun]
        exact .same (.inr trivial) nofun hinv' hsame
      · rw [Runtime.run, Machine.create, hrun]
        refine .made (.inr trivial) rfl hfresh hu ho ?_
        rintro - - t ht
        obtain rfl := Option.some.inj ht
        exact trivial
  | emptyString => exact fromData_effect hapi hinv [] rfl fun _ => Iff.rfl
  | fromData data => exact fromData_effect hapi hinv data rfl fun _ => Iff.rfl
  | newEmpty D T => exact newEmpty_effect hapi hinv D T
  | tryClone self => exact clone_effect hapi hinv self rfl fun _ => Iff.rfl
  | tryToOwned self => exact clone_effect hapi hinv self rfl fun _ => Iff.rfl
  | cloneIntoPointer self other => exact cloneIntoPointer_effect hapi hinv self other
  | set self value => exact set_effect hapi hinv value (.inr trivial) nofun rfl id
  | setStr self value => exact set_effect hapi hinv _ (.inr trivial) nofun rfl id
  | resizeArray self D T new_dims => exact resizeArray_effect hapi hinv self D T new_dims
  | copyFromNdarray self D T array =>
      obtain ⟨hw, hu, hf⟩ := hsafe
      rw [hw] at hapi
      have hcopy := LVArrayHandle.copyFromNdarray_effect hapi (rt.nd D T) array hu hf
      rw [← hw] at hcopy hapi
      exact onVariable_effect_of_usable hapi (.inr trivial) nofun rfl id hu hcopy
  | setValueUnchecked self D T index value =>
      obtain ⟨hu, hf, hi⟩ := hsafe
      have hset := LVArrayHandle.setValueUnchecked_effect hapi hu hf hi value
      exact onVariable_effect_of_usable hapi (.inr trivial) nofun rfl id hu hset
  | drop self =>
      obtain ⟨w', hrun, hinv', hgone, ho⟩ := OwnedUHandle.drop_of_live hapi hinv (hm.live self hsafe)
      rw [Runtime.run, Machine.release, hrun]
      exact .dropped rfl hsafe hinv' hgone ho

/-! ## what every step keeps -/

/-- A handle that is used elsewhere stays usable, at its type. -/
theorem HandleTy.usable_of_kept {w w' : World τ} {k : UHandle} {ty : HandleTy} {width : PtrWidth}
    (hk : w.Kept w' k) (hinv : inv w')
    (h : (⟨k, w⟩ : Slot τ).Usable inv ∧ ty.Wf width w k) :
    (⟨k, w'⟩ : Slot τ).Usable inv ∧ ty.Wf width w' k := by
  obtain ⟨hu, hwf⟩ := h
  obtain ⟨n, hn⟩ := Option.ne_none_iff_exists'.mp hu.live
  refine ⟨⟨hinv, ?_, ?_⟩, hwf.of_block hk.block⟩
  · rw [World.Live, hk.live]
    exact hu.live
  · rw [hk.addr n hn]
    exact hu.addr

/-- The type of one handle changes. -/
theorem Machine.Typed.update {w : World τ} {owned : List UHandle} {h : UHandle}
    {ty : Option HandleTy} {width : PtrWidth} (hm : m.Typed width inv) (hinv : inv w)
    (ho : m.world.SameBut w h)
    (hh : ∀ t, ty = some t → (⟨h, w⟩ : Slot τ).Usable inv ∧ t.Wf width w h) :
    Machine.Typed width inv ⟨w, owned, Function.update m.types h ty⟩ := by
  intro k t hk
  by_cases hkh : k = h
  · subst hkh
    exact hh t (by simpa using hk)
  · have hk' : m.types k = some t := by simpa [hkh] using hk
    exact HandleTy.usable_of_kept (ho k hkh) hinv (hm k t hk')

namespace Effect

variable {r : Outcome LVInteropError UHandle × Machine τ}

/-- Owned values keep holding live handles, each its own. -/
theorem inv_step (he : Effect rt inv op m r) (hm : m.Inv inv) : r.2.Inv inv := by
  cases he with
  | same _ _ hinv hs =>
      exact ⟨hinv, fun k hk => (hs k).live_iff.mpr (hm.live k hk), hm.nodup⟩
  | confined _ _ _ _ hcon _ =>
      refine ⟨hcon.inv, fun k hk => ?_, hm.nodup⟩
      exact hcon.others.live_of_live hcon.live (hm.live k hk)
  | filled _ _ _ _ hu ho _ =>
      exact ⟨hu.inv, fun k hk => ho.live_of_live hu.live (hm.live k hk), hm.nodup⟩
  | made _ _ hfresh hu ho _ =>
      refine ⟨hu.inv, fun k hk => ?_, List.nodup_cons.mpr ⟨fun hmem => ?_, hm.nodup⟩⟩
      · cases hk with
        | head => exact hu.live
        | tail _ hk => exact ho.live_of_live hu.live (hm.live k hk)
      · exact hm.live _ hmem hfresh
  | lost _ _ _ hu ho =>
      exact ⟨hu.inv, fun k hk => ho.live_of_live hu.live (hm.live k hk), hm.nodup⟩
  | dropped _ _ hinv _ ho =>
      refine ⟨hinv, fun k hk => ?_, hm.nodup.erase _⟩
      obtain ⟨hne, hmem⟩ := hm.nodup.mem_erase_iff.mp hk
      exact (ho k hne).live_iff.mpr (hm.live k hmem)

/-- Handles stay usable at their types, if operations are used at theirs. -/
theorem typed_step (he : Effect rt inv op m r) (hm : m.Typed rt.width inv) (hwt : op.WellTyped m)
    (hini : op.Initialises rt m) : r.2.Typed rt.width inv := by
  cases he with
  | same _ _ hinv hs =>
      exact fun k t hk => HandleTy.usable_of_kept (hs k) hinv (hm k t hk)
  | @confined h w _ _ _ _ hcon hty =>
      intro k t hk
      by_cases hkh : k = h
      · subst hkh
        exact ⟨hcon.usable, hty hwt hm t hk⟩
      · exact HandleTy.usable_of_kept (hcon.others k hkh) hcon.inv (hm k t hk)
  | filled _ _ _ _ hu ho hty => exact hm.update hu.inv ho fun t ht => ⟨hu, hty hm t ht⟩
  | made _ _ _ hu ho hty => exact hm.update hu.inv ho fun t ht => ⟨hu, hty hini hm t ht⟩
  | lost _ _ hfresh hu ho =>
      intro k t hk
      have hlive := (hm k t hk).1.live
      have hkh : k ≠ _ := fun hc => hlive (hc ▸ hfresh)
      exact HandleTy.usable_of_kept (ho k hkh) hu.inv (hm k t hk)
  | dropped _ _ hinv _ ho => exact hm.update hinv ho nofun

/-- **The frame of a step**: a live handle that is not the target is kept. -/
theorem kept (he : Effect rt inv op m r) {k : UHandle} (hl : m.world.Live k)
    (ht : op.target ≠ some k) : m.world.Kept r.2.world k := by
  have hfresh_ne : ∀ h, m.world.live h = none → k ≠ h := by
    rintro h hfresh rfl
    exact hl hfresh
  cases he with
  | same _ _ _ hs => exact hs k
  | confined _ _ htarget _ hcon _ =>
      refine hcon.others k fun hc => ht ?_
      rw [htarget, hc]
  | filled _ _ _ hfresh _ ho _ => exact ho k (hfresh_ne _ hfresh)
  | made _ _ hfresh _ ho _ => exact ho k (hfresh_ne _ hfresh)
  | lost _ _ hfresh _ ho => exact ho k (hfresh_ne _ hfresh)
  | dropped hop _ _ _ ho =>
      refine ho k fun hc => ht ?_
      rw [hop, hc]
      rfl

/-- A successful operation keeps a live handle or returns it. -/
theorem kept_or_returned (he : Effect rt inv op m r) {h k : UHandle} (hok : r.1 = .ok h)
    (hl : m.world.Live k) : m.world.Kept r.2.world k ∨ h = k := by
  have hor : ∀ h', m.world.SameBut r.2.world h' → (h' = k → h = k) →
      m.world.Kept r.2.world k ∨ h = k := by
    intro h' ho hh
    by_cases hk : k = h'
    · exact .inr (hh hk.symm)
    · exact .inl (ho k hk)
  cases he with
  | same _ _ _ hs => exact .inl (hs k)
  | confined _ _ _ _ hcon _ => exact hor _ hcon.others fun hk => (Outcome.ok.inj hok).symm.trans hk
  | filled _ _ _ _ _ ho _ => exact hor _ ho fun hk => (Outcome.ok.inj hok).symm.trans hk
  | made _ _ _ _ ho _ => exact hor _ ho fun hk => (Outcome.ok.inj hok).symm.trans hk
  | lost _ _ hfresh _ ho => exact hor _ ho fun hk => absurd (hk ▸ hfresh) hl
  | dropped _ _ _ _ ho => exact hor _ ho fun hk => (Outcome.ok.inj hok).symm.trans hk

/-- **A failed operation keeps every live handle**, its target included. -/
theorem kept_of_err (he : Effect rt inv op m r) {e : LVInteropError} (herr : r.1 = .err e)
    {k : UHandle} (hl : m.world.Live k) : m.world.Kept r.2.world k := by
  cases he with
  | same _ _ _ hs => exact hs k
  | confined => cases herr
  | filled => cases herr
  | made => cases herr
  | lost _ _ hfresh _ ho =>
      refine ho k ?_
      rintro rfl
      exact hl hfresh
  | dropped => cases herr

end Effect

/-! ## legal runs -/

/-- What the types and the `# Safety` sections ask of an operation: arrays are
used at their type, elements are stored below the element count, and owned
values are dropped. -/
def Op.Legal (rt : Runtime τ) (op : Op) (m : Machine τ) : Prop :=
  op.WellTyped m ∧
    match op with
    | .copyFromNdarray self D T _ => rt.width = .w64 ∧ m.types self = some (.lvArray D T)
    | .setValueUnchecked self D T index _ => m.types self = some (.lvArray D T) ∧
        index < LVArray.elementCount rt.width D (m.world.addr self) m.world
    | .drop self => self ∈ m.owned
    | _ => True

/-- In a typed state, legal operations are safe. -/
theorem Op.Legal.safe (h : op.Legal rt m) (ht : m.Typed rt.width inv) : op.Safe rt inv m := by
  cases op with
  | copyFromNdarray self D T array =>
      obtain ⟨-, hw, hty⟩ := h
      obtain ⟨hu, hf⟩ := ht self _ hty
      exact ⟨hw, hu, hw ▸ hf⟩
  | setValueUnchecked self D T index value =>
      obtain ⟨-, hty, hi⟩ := h
      obtain ⟨hu, hf⟩ := ht self _ hty
      exact ⟨hu, hf, hi⟩
  | drop self => exact h.2
  | new | emptyString | fromData | newEmpty | tryClone | tryToOwned | cloneIntoPointer | set
    | setStr | resizeArray => exact trivial

/-- **Well-formed states stay well-formed** along the runs of legal operations
in which no array is made without its header: what one step does to such a
state holds of every step. -/
theorem along_of_legal {P : Op → Machine τ → Prop} (hapi : rt.api.Lawful rt.width inv)
    (hP : ∀ op m, m.Inv inv → m.Typed rt.width inv → op.Legal rt m →
      Effect rt inv op m (rt.run op m) → (rt.step op m).Inv inv →
      (rt.step op m).Typed rt.width inv → P op m)
    (hm : m.Inv inv) (ht : m.Typed rt.width inv) (ops : List Op)
    (hops : Along rt.step (fun op m => op.Legal rt m ∧ op.Initialises rt m) ops m) :
    Along rt.step P ops m := by
  have heffect : ∀ op m, m.Inv inv ∧ m.Typed rt.width inv →
      op.Legal rt m ∧ op.Initialises rt m → Effect rt inv op m (rt.run op m) :=
    fun op m hs hl => run_effect hapi hs.1 (hl.1.safe hs.2)
  refine Along.of_invariant (I := fun m => m.Inv inv ∧ m.Typed rt.width inv) ?_ ?_ ops m ⟨hm, ht⟩
    hops
  · intro op m hs hl
    have he := heffect op m hs hl
    exact ⟨he.inv_step hs.1, he.typed_step hs.2 hl.1.1 hl.2⟩
  · intro op m hs hl
    have he := heffect op m hs hl
    exact hP op m hs.1 hs.2 hl.1 he (he.inv_step hs.1) (he.typed_step hs.2 hl.1.1 hl.2)

end LvInterop
