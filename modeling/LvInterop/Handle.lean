import LvInterop.Labview

/-!
# LvInterop.Handle

Handles and owned handles (`memory/uhandle.rs`, `memory/owned_handle.rs`).

A method that takes a handle by `&mut` or `*mut` runs on a `Slot`: the handle
variable together with the world, since the manager may store another handle
in the variable.  Ownership is not visible in memory: an owned handle is the
same word as a handle, and differs only in who calls `drop`.
-/

namespace LvInterop

open Lib

/-! ## references -/

/-- What dereferencing a handle finds: the address of the block, and the word
behind the master pointer, which is the metadata of a pointer to an unsized
type. -/
structure FatPtr where
  addr : Nat
  metadata : Nat
deriving DecidableEq, Repr

/-- A handle variable and the world it points into. -/
structure Slot (τ : Type) where
  handle : UHandle
  world : World τ

variable {τ α : Type}

/-- Run a body that only looks at the handle. -/
def Slot.onWorld (x : UHandle → Exec (World τ) LVInteropError α) : Exec (Slot τ) LVInteropError α :=
  fun s => ((x s.handle s.world).1, { s with world := (x s.handle s.world).2 })

namespace UHandle

/-- `UHandle::as_ref`: neither the handle nor its master pointer may be null. -/
def asRef (self : UHandle) (w : World τ) : Result FatPtr :=
  if self = .null then
    .error (.internalError .invalidHandle)
  else if w.addr self = 0 then
    .error (.internalError .invalidHandle)
  else
    .ok ⟨w.addr self, (w.master self).next⟩

/-- `UHandle::as_ref_mut`. -/
def asRefMut (self : UHandle) (w : World τ) : Result FatPtr := self.asRef w

/-- `Deref` and `DerefMut`, which panic where `as_ref` is an error. -/
def deref (self : UHandle) : Exec (World τ) LVInteropError FatPtr := Exec.unwrapRead self.asRef

/-- `UHandle::valid`. -/
def valid (memoryApi : Result (MemoryApi τ)) (self : UHandle) (w : World τ) : Bool :=
  match self.asRef w with
  | .error _ => false
  | .ok _ =>
      match memoryApi with
      | .ok api => api.checkHandle self w = .SUCCESS
      | .error _ => false

/-- `UHandle::resize`. -/
def resize (memoryApi : Result (MemoryApi τ)) (self : UHandle) (desired_size : Nat) :
    Exec (World τ) LVInteropError Unit := do
  let api ← Exec.ofExcept memoryApi
  let err ← Exec.call (api.setHandleSize self desired_size)
  Exec.ofExcept (err.toSpecificResult ())

/-- `DSCopyHandle` on the handle variable `other` points to. -/
def copyHandle (api : MemoryApi τ) (hsrc : UHandle) (other : Slot τ) : LVStatusCode × Slot τ :=
  let r := api.copyHandle other.handle hsrc other.world
  (r.1.1, ⟨r.1.2, r.2⟩)

/-- `UHandle::clone_into_pointer`, run on the slot of `other`. -/
def cloneIntoPointer (memoryApi : Result (MemoryApi τ)) (self : UHandle) :
    Exec (Slot τ) LVInteropError Unit := do
  let api ← Exec.ofExcept memoryApi
  let valid ← Exec.read fun other => self.valid memoryApi other.world
  if !valid then
    Exec.fail (.internalError .invalidHandle)
  else do
    let error ← Exec.call (copyHandle api self)
    Exec.ofExcept (error.toSpecificResult ())

end UHandle

namespace OwnedUHandle

/-- `OwnedUHandle::new`; `value` is the representation of a sized value. -/
def new (memoryApi : Result (MemoryApi τ)) (value : List UInt8) :
    Exec (World τ) LVInteropError UHandle := do
  let api ← Exec.ofExcept memoryApi
  let handle ← Exec.call (api.newHandle value.length)
  if handle = .null then
    Exec.fail (.internalError .handleCreationFailed)
  else do
    Exec.modify fun w => w.write (w.addr handle) value
    pure handle

/-- The end of `new_unsized` once `init_routine` has run on `new_value`.  An
error is returned with `?`, before the handle is wrapped in its owner. -/
def wrap : Outcome LVInteropError Unit × Slot τ → Outcome LVInteropError UHandle × World τ
  | (.ok (), new_value) => (.ok new_value.handle, new_value.world)
  | (.err e, new_value) => (.err e, new_value.world)
  | (.panic, new_value) => (.panic, new_value.world)

/-- `OwnedUHandle::new_unsized`. -/
def newUnsized (memoryApi : Result (MemoryApi τ))
    (init_routine : Exec (Slot τ) LVInteropError Unit) :
    Exec (World τ) LVInteropError UHandle := do
  let api ← Exec.ofExcept memoryApi
  let handle ← Exec.call (api.newHandle 0)
  if handle = .null then
    Exec.fail (.internalError .handleCreationFailed)
  else
    fun w => wrap (init_routine ⟨handle, w⟩)

/-- `OwnedUHandle::try_clone`. -/
def tryClone (memoryApi : Result (MemoryApi τ)) (self : UHandle) :
    Exec (World τ) LVInteropError UHandle :=
  newUnsized memoryApi (self.cloneIntoPointer memoryApi)

/-- `Drop`: the handle is disposed; an error is only printed. -/
def drop (memoryApi : Result (MemoryApi τ)) (self : UHandle) :
    Exec (World τ) LVInteropError Unit :=
  match memoryApi with
  | .ok api => do
      let _ ← Exec.call (api.disposeHandle self)
      pure ()
  | .error _ => pure ()

end OwnedUHandle

/-- `UHandle::try_to_owned`. -/
def UHandle.tryToOwned (memoryApi : Result (MemoryApi τ)) (self : UHandle) :
    Exec (World τ) LVInteropError UHandle :=
  OwnedUHandle.newUnsized memoryApi (self.cloneIntoPointer memoryApi)

/-! ## what a handle operation may do -/

/-- The world after an operation on a live handle variable: the variable and
the table entry stay, and no other block was touched. -/
structure Slot.Confined (inv : World τ → Prop) (s s' : Slot τ) : Prop where
  inv : inv s'.world
  handle : s'.handle = s.handle
  live : s'.world.Live s.handle
  addr : s'.world.addr s.handle ≠ 0
  others : s.world.SameBut s'.world s.handle

/-- A handle variable that can be dereferenced and is known to the manager. -/
structure Slot.Usable (inv : World τ → Prop) (s : Slot τ) : Prop where
  inv : inv s.world
  live : s.world.Live s.handle
  addr : s.world.addr s.handle ≠ 0

theorem Slot.Usable.confined_self {inv : World τ → Prop} {s : Slot τ} (h : s.Usable inv) :
    s.Confined inv s :=
  ⟨h.inv, rfl, h.live, h.addr, fun k _ => .refl _ k⟩

theorem Slot.Confined.usable {inv : World τ → Prop} {s s' : Slot τ} (h : s.Confined inv s') :
    s'.Usable inv :=
  ⟨h.inv, h.handle ▸ h.live, h.handle ▸ h.addr⟩

theorem Slot.Confined.trans {inv : World τ → Prop} {s₁ s₂ s₃ : Slot τ} (h₁ : s₁.Confined inv s₂)
    (h₂ : s₂.Confined inv s₃) : s₁.Confined inv s₃ := by
  have he := h₁.handle
  refine ⟨h₂.inv, h₂.handle.trans he, he ▸ h₂.live, he ▸ h₂.addr, h₁.others.trans ?_⟩
  exact he ▸ h₂.others

/-- A live handle after a request that changed nothing. -/
theorem Slot.Usable.confined_of_same {inv : World τ → Prop} {s : Slot τ} {w' : World τ}
    (h : s.Usable inv) (hinv : inv w') (hs : s.world.Same w') : s.Confined inv ⟨s.handle, w'⟩ := by
  obtain ⟨n, hn⟩ := Option.ne_none_iff_exists'.mp h.live
  have hk := hs s.handle
  refine ⟨hinv, rfl, ?_, ?_, hs.sameBut _⟩
  · rw [World.Live, hk.live, hn]
    exact Option.some_ne_none n
  · rw [hk.addr n hn]
    exact h.addr

/-- A live handle after a request on it was granted. -/
theorem Slot.confined_of_granted {inv : World τ → Prop} {s : Slot τ} {w' : World τ} {n : Nat}
    (hinv : inv w') (hg : s.world.Granted w' s.handle n) : s.Confined inv ⟨s.handle, w'⟩ :=
  ⟨hinv, rfl, by simp [World.Live, hg.live], hg.addr, hg.others⟩

/-- How a method on a handle variable may end: nothing has changed, or it has
returned and the change is confined to the live block, or it has returned and
there is a new handle in a variable that was null. -/
inductive Slot.Effect (inv : World τ → Prop) (s : Slot τ) (r : Outcome LVInteropError Unit × Slot τ) :
    Prop
  | same (hinv : inv r.2.world) (hh : r.2.handle = s.handle) (hs : s.world.Same r.2.world)
  | confined (hok : r.1 = .ok ()) (hl : s.world.Live s.handle) (hc : s.Confined inv r.2)
  | filled (hok : r.1 = .ok ()) (hnull : s.handle = .null) (hfresh : s.world.live r.2.handle = none)
      (hu : r.2.Usable inv) (ho : s.world.SameBut r.2.world r.2.handle)

/-! ## dereferencing -/

section Lawful

variable {width : PtrWidth} {inv : World τ → Prop} {api : MemoryApi τ}

/-- A live handle is not null. -/
theorem UHandle.ne_null_of_live (hapi : api.Lawful width inv) {w : World τ} {h : UHandle}
    (hinv : inv w) (hl : w.Live h) : h ≠ .null := by
  rintro rfl
  exact hl (hapi.null hinv)

/-- A usable handle dereferences to its block. -/
theorem UHandle.asRef_of_usable (hapi : api.Lawful width inv) {s : Slot τ} (hs : s.Usable inv) :
    s.handle.asRef s.world = .ok ⟨s.world.addr s.handle, (s.world.master s.handle).next⟩ := by
  rw [asRef, if_neg (UHandle.ne_null_of_live hapi hs.inv hs.live), if_neg hs.addr]

/-- `valid` holds of exactly the usable handles. -/
theorem UHandle.valid_iff (hapi : api.Lawful width inv) {s : Slot τ} (hinv : inv s.world) :
    s.handle.valid (.ok api) s.world = true ↔ s.Usable inv := by
  constructor
  · intro hv
    unfold valid asRef at hv
    split_ifs at hv with hnull haddr
    · exact ⟨hinv, (hapi.check hinv).mp (by simpa using hv), haddr⟩
  · intro hu
    rw [valid, UHandle.asRef_of_usable hapi hu]
    simpa using (hapi.check hinv).mpr hu.live

/-! ## the operations, case by case -/

/-- `resize` returns what the manager's status says. -/
theorem UHandle.resize_run (h : UHandle) (n : Nat) (w : World τ) :
    h.resize (.ok api) n w = (.ofExcept ((api.setHandleSize h n w).1.toSpecificResult ()),
      (api.setHandleSize h n w).2) := rfl

/-- A call whose status is an error returns an error. -/
theorem ofExcept_toSpecificResult_of_ne {s : LVStatusCode} (h : s ≠ .SUCCESS) :
    ∃ e, Outcome.ofExcept (s.toSpecificResult ()) = .err e := by
  obtain ⟨e, he⟩ := LVStatusCode.toSpecificResult_of_ne h ()
  exact ⟨e, by rw [he, Outcome.ofExcept]⟩

theorem ofExcept_toSpecificResult_eq_ok_iff {s : LVStatusCode} :
    Outcome.ofExcept (s.toSpecificResult ()) = .ok () ↔ s = .SUCCESS := by
  constructor
  · intro h
    by_contra hs
    obtain ⟨e, he⟩ := ofExcept_toSpecificResult_of_ne hs
    cases he.symm.trans h
  · rintro rfl
    rfl

/-- A source that is not valid is refused before the manager is called. -/
theorem UHandle.cloneIntoPointer_of_not_valid {src : UHandle} {s : Slot τ}
    (hv : src.valid (.ok api) s.world = false) :
    src.cloneIntoPointer (.ok api) s = (.err (.internalError .invalidHandle), s) := by
  simp [cloneIntoPointer, hv]

/-- A valid source is handed to the manager. -/
theorem UHandle.cloneIntoPointer_of_valid {src : UHandle} {s : Slot τ}
    (hv : src.valid (.ok api) s.world = true) :
    src.cloneIntoPointer (.ok api) s =
      (.ofExcept ((copyHandle api src s).1.toSpecificResult ()), (copyHandle api src s).2) := by
  simp [cloneIntoPointer, hv]

/-- `clone_into_pointer` fails and changes nothing, or the handle variable
holds a copy of the source block. -/
theorem UHandle.cloneIntoPointer_cases (hapi : api.Lawful width inv) (src : UHandle) {s : Slot τ}
    (hinv : inv s.world) : ∃ s' : Slot τ, inv s'.world ∧
      ((∃ e, src.cloneIntoPointer (.ok api) s = (.err e, s') ∧ s'.handle = s.handle ∧
          s.world.Same s'.world) ∨
        (src.cloneIntoPointer (.ok api) s = (.ok (), s') ∧ s.world.Target s.handle s'.handle ∧
          ∃ n, s.world.live src = some n ∧ s.world.addr src ≠ 0 ∧
            s.world.Granted s'.world s'.handle n ∧
            s.world.Survives s'.world src s'.handle n)) := by
  cases hv : src.valid (.ok api) s.world with
  | false =>
      exact ⟨s, hinv, .inl ⟨_, cloneIntoPointer_of_not_valid hv, rfl, .refl _⟩⟩
  | true =>
      have haddr := ((UHandle.valid_iff (s := ⟨src, s.world⟩) hapi hinv).mp hv).addr
      have hrun := cloneIntoPointer_of_valid hv
      rcases hr : api.copyHandle s.handle src s.world with ⟨⟨st, h'⟩, w'⟩
      have hcopy : copyHandle api src s = (st, ⟨h', w'⟩) := by rw [copyHandle, hr]
      rw [hcopy] at hrun
      obtain ⟨hinv', ⟨hst, hh, hsame⟩ | ⟨rfl, ht, n, hn, hg, hsurv⟩⟩ := hapi.copy hinv hr
      · obtain ⟨e, he⟩ := ofExcept_toSpecificResult_of_ne hst
        exact ⟨⟨h', w'⟩, hinv', .inl ⟨e, by rw [hrun, he], hh, hsame⟩⟩
      · exact ⟨⟨h', w'⟩, hinv', .inr ⟨hrun, ht, n, hn, haddr, hg, hsurv⟩⟩

/-- A request granted on the target of a handle variable. -/
theorem Slot.Effect.of_granted {s s' : Slot τ} {n : Nat} (hinv' : inv s'.world)
    (ht : s.world.Target s.handle s'.handle) (hg : s.world.Granted s'.world s'.handle n) :
    s.Effect inv (.ok (), s') := by
  obtain ⟨hnull, hfresh⟩ | ⟨-, hh, hl⟩ := ht
  · exact .filled rfl hnull hfresh ⟨hinv', by simp [World.Live, hg.live], hg.addr⟩ hg.others
  · obtain ⟨h', w'⟩ := s'
    obtain rfl : h' = s.handle := hh
    exact .confined rfl hl (Slot.confined_of_granted hinv' hg)

/-- On a usable variable there are only changes to its block. -/
theorem Slot.Effect.confined_of_usable (hapi : api.Lawful width inv) {s : Slot τ}
    {r : Outcome LVInteropError Unit × Slot τ} (he : s.Effect inv r) (hu : s.Usable inv) :
    s.Confined inv r.2 := by
  obtain ⟨o, h', w'⟩ := r
  cases he with
  | same hinv hh hs =>
      obtain rfl : h' = s.handle := hh
      exact hu.confined_of_same hinv hs
  | confined _ _ hc => exact hc
  | filled _ hnull _ _ _ => exact absurd hnull (UHandle.ne_null_of_live hapi hu.inv hu.live)

/-- `clone_into_pointer` succeeds when the source is valid and the manager
copies it. -/
theorem UHandle.cloneIntoPointer_ok_iff {src : UHandle} {s : Slot τ} :
    (src.cloneIntoPointer (.ok api) s).1 = .ok () ↔
      src.valid (.ok api) s.world = true ∧ (copyHandle api src s).1 = .SUCCESS := by
  cases hv : src.valid (.ok api) s.world with
  | false => simp [cloneIntoPointer_of_not_valid hv]
  | true => simp [cloneIntoPointer_of_valid hv, ofExcept_toSpecificResult_eq_ok_iff]

/-- A successful `clone_into_pointer` leaves an equal block. -/
theorem UHandle.cloneIntoPointer_block (hapi : api.Lawful width inv) {src : UHandle}
    {s s' : Slot τ} (hinv : inv s.world) (hrun : src.cloneIntoPointer (.ok api) s = (.ok (), s')) :
    s'.world.block s'.handle = s.world.block src := by
  obtain ⟨s₁, -, ⟨e, hr, -, -⟩ | ⟨hr, -, n, hn, -, hg, hsurv⟩⟩ :=
    cloneIntoPointer_cases hapi src hinv
  · simp [hr] at hrun
  · obtain rfl := (Prod.mk.inj (hr.symm.trans hrun)).2
    exact hg.block_eq hn hsurv

theorem UHandle.cloneIntoPointer_effect (hapi : api.Lawful width inv) (src : UHandle) {s : Slot τ}
    (hinv : inv s.world) : s.Effect inv (src.cloneIntoPointer (.ok api) s) := by
  obtain ⟨s', hinv', ⟨e, hrun, hh, hsame⟩ | ⟨hrun, ht, n, -, -, hg, -⟩⟩ :=
    cloneIntoPointer_cases hapi src hinv
  · rw [hrun]
    exact .same hinv' hh hsame
  · rw [hrun]
    exact .of_granted hinv' ht hg

namespace OwnedUHandle

/-- `new` fails and changes nothing, or returns a fresh handle. -/
theorem new_cases (hapi : api.Lawful width inv) {w : World τ} (hinv : inv w)
    (value : List UInt8) : ∃ w', inv w' ∧
      ((w.Same w' ∧ new (.ok api) value w = (.err (.internalError .handleCreationFailed), w')) ∨
        ∃ h, w.live h = none ∧ (⟨h, w'⟩ : Slot τ).Usable inv ∧ w.SameBut w' h ∧
          new (.ok api) value w = (.ok h, w')) := by
  rcases hn : api.newHandle value.length w with ⟨h, w'⟩
  obtain ⟨hinv', ⟨rfl, hsame⟩ | ⟨hfresh, hg⟩⟩ := hapi.new hinv hn
  · exact ⟨w', hinv', .inl ⟨hsame, by simp [new, hn]⟩⟩
  · have hlive : w'.Live h := by simp [World.Live, hg.live]
    have hne := UHandle.ne_null_of_live hapi hinv' hlive
    have hwrite : w'.SameBut (w'.write (w'.addr h) value) h :=
      World.sameBut_write (hapi.apart hinv') hg.live (Nat.le_refl _) (Nat.le_refl _)
    exact ⟨w'.write (w'.addr h) value, hapi.inv_mem _ hinv', .inr ⟨h, hfresh,
      ⟨hapi.inv_mem _ hinv', hlive, hg.addr⟩, hg.others.trans hwrite, by simp [new, hn, hne]⟩⟩

/-- A handle the manager knows is disposed of, and nothing else. -/
theorem drop_of_live (hapi : api.Lawful width inv) {w : World τ} {h : UHandle} (hinv : inv w)
    (hl : w.Live h) : ∃ w', drop (.ok api) h w = (.ok (), w') ∧ inv w' ∧ w'.live h = none ∧
      w.SameBut w' h := by
  rcases hr : api.disposeHandle h w with ⟨s, w'⟩
  obtain ⟨hinv', ⟨-, hdead, -⟩ | ⟨-, -, hgone, hothers⟩⟩ := hapi.dispose hinv hr
  · exact absurd hl hdead
  · exact ⟨w', by simp [drop, hr], hinv', hgone, hothers⟩

/-- `new_unsized` when the manager has no handle to give. -/
theorem newUnsized_of_null {init : Exec (Slot τ) LVInteropError Unit} {w w' : World τ}
    (hn : api.newHandle 0 w = (.null, w')) :
    newUnsized (.ok api) init w = (.err (.internalError .handleCreationFailed), w') := by
  simp [newUnsized, hn]

/-- `new_unsized` on a fresh handle runs `init_routine` on it. -/
theorem newUnsized_of_ne {init : Exec (Slot τ) LVInteropError Unit} {w w' : World τ}
    {h : UHandle} (hne : h ≠ .null) (hn : api.newHandle 0 w = (h, w')) :
    newUnsized (.ok api) init w = wrap (init ⟨h, w'⟩) := by
  simp [newUnsized, hn, hne]

/-- `s` holds a handle that `DSNewHandle(0)` made in the world `w`. -/
structure Fresh (api : MemoryApi τ) (inv : World τ → Prop) (w : World τ) (s : Slot τ) : Prop where
  new : api.newHandle 0 w = (s.handle, s.world)
  ne_null : s.handle ≠ .null
  unknown : w.live s.handle = none
  granted : w.Granted s.world s.handle 0
  usable : s.Usable inv

/-- A handle the manager knew is not the fresh one. -/
theorem Fresh.ne_of_live {w : World τ} {s : Slot τ} (hf : Fresh api inv w s) {k : UHandle}
    (hk : w.Live k) : k ≠ s.handle := by
  rintro rfl
  exact hk hf.unknown

/-- The manager's two answers to `new_unsized`. -/
theorem newUnsized_cases (hapi : api.Lawful width inv) {w : World τ} (hinv : inv w)
    (init : Exec (Slot τ) LVInteropError Unit) :
    (∃ w', api.newHandle 0 w = (.null, w') ∧ inv w' ∧ w.Same w' ∧
      newUnsized (.ok api) init w = (.err (.internalError .handleCreationFailed), w')) ∨
    (∃ s, Fresh api inv w s ∧ newUnsized (.ok api) init w = wrap (init s)) := by
  rcases hn : api.newHandle 0 w with ⟨h, w'⟩
  obtain ⟨hinv', ⟨rfl, hsame⟩ | ⟨hfresh, hg⟩⟩ := hapi.new hinv hn
  · exact .inl ⟨w', rfl, hinv', hsame, newUnsized_of_null hn⟩
  · have hlive : w'.Live h := by simp [World.Live, hg.live]
    have hne := UHandle.ne_null_of_live hapi hinv' hlive
    exact .inr ⟨⟨h, w'⟩, ⟨hn, hne, hfresh, hg, ⟨hinv', hlive, hg.addr⟩⟩, newUnsized_of_ne hne hn⟩

/-- What `new_unsized` returns is usable when `init_routine` keeps to the block
it is given. -/
theorem newUnsized_usable (hapi : api.Lawful width inv)
    {init : Exec (Slot τ) LVInteropError Unit}
    (hinit : ∀ s : Slot τ, s.Usable inv → s.Confined inv (init s).2) {w w' : World τ} {h : UHandle}
    (hinv : inv w) (hrun : newUnsized (.ok api) init w = (.ok h, w')) :
    (⟨h, w'⟩ : Slot τ).Usable inv := by
  obtain ⟨w₀, -, -, -, hr⟩ | ⟨s, hf, hr⟩ := newUnsized_cases hapi hinv init
  · simp [hr] at hrun
  · rw [hr] at hrun
    have hu := (hinit s hf.usable).usable
    rcases hi : init s with ⟨o, s'⟩
    rw [hi] at hrun hu
    cases o with
    | ok u =>
        obtain ⟨ho, rfl⟩ := Prod.mk.inj hrun
        obtain rfl := Outcome.ok.inj ho
        exact hu
    | err e => cases hrun
    | panic => cases hrun

end OwnedUHandle

/-- A successful `try_to_owned` of a live handle returns an equal block. -/
theorem UHandle.tryToOwned_block (hapi : api.Lawful width inv) {src h : UHandle} {w w' : World τ}
    (hinv : inv w) (hl : w.Live src) (hrun : src.tryToOwned (.ok api) w = (.ok h, w')) :
    w'.block h = w.block src := by
  obtain ⟨w₀, -, -, -, hr⟩ | ⟨s, hf, hr⟩ :=
    OwnedUHandle.newUnsized_cases hapi hinv (src.cloneIntoPointer (.ok api))
  · cases hr.symm.trans hrun
  · have hwrap := hr.symm.trans hrun
    rcases hi : src.cloneIntoPointer (.ok api) s with ⟨o, s'⟩
    rw [hi] at hwrap
    cases o with
    | ok u =>
        obtain ⟨ho, rfl⟩ := Prod.mk.inj hwrap
        obtain rfl := Outcome.ok.inj ho
        have hkept := hf.granted.others src (hf.ne_of_live hl)
        exact (cloneIntoPointer_block hapi hf.usable.inv hi).trans hkept.block
    | err e => cases hwrap
    | panic => cases hwrap

end Lawful

end LvInterop
