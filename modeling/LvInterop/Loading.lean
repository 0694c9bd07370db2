import LvInterop.Lib.Lazy
import LvInterop.Refine
import LvInterop.Sync

/-!
# LvInterop.Loading

How the functions of LabVIEW are found (`labview.rs`): each of the two APIs is
loaded at its first use, from the process itself or else from the runtime
library, and the outcome is kept.

What the process has loaded may change at any time.  A program cannot tell:
whatever it does and whenever, it behaves as if both outcomes had been there
from the start, and those are what was found at the first use
(`loading_settles`).  Once the memory manager is found, the operations on
handles are those of a `Runtime` (`loaded_run`).
-/

namespace LvInterop

open Lib

variable {τ ρ δ : Type}

/-! ## loading -/

/-- The two APIs. -/
inductive Api where
  | memory
  | sync
deriving DecidableEq

/-- The functions of an API. -/
abbrev Api.Functions (τ ρ : Type) : Api → Type
  | .memory => MemoryApi τ
  | .sync => SyncApi ρ

/-- The path of the runtime library. -/
def LVRT_PATH : String := "lvrt"

/-- `Container::load_self` and `Container::load`. -/
inductive Request where
  | loadSelf
  | load (path : String)
deriving DecidableEq

/-- Find the functions of an API, or say why not; `δ` is what the process has
loaded. -/
abbrev Dlopen (τ ρ δ : Type) : Type :=
  (i : Api) → Request → δ → Except String (i.Functions τ ρ) × δ

/-- What the process has loaded, what it was asked for with which answer, and
what was printed about it. -/
structure Loader (τ ρ δ : Type) where
  dl : δ
  asked : (i : Api) → List (Request × Except String (i.Functions τ ρ))
  printed : List String

/-- A process that has not been asked for anything. -/
def Loader.start (dl : δ) : Loader τ ρ δ := ⟨dl, fun _ => [], []⟩

/-- Ask for an API. -/
def Loader.ask (dlopen : Dlopen τ ρ δ) (i : Api) (request : Request) (l : Loader τ ρ δ) :
    Except String (i.Functions τ ρ) × Loader τ ρ δ :=
  let r := dlopen i request l.dl
  (r.1, { l with
    dl := r.2
    asked := Function.update l.asked i (l.asked i ++ [(request, r.1)]) })

/-- The error of a container that is not loaded. -/
def noLabviewApi (e : String) : LVInteropError := .internalError (.noLabviewApi e)

/-- `load_container`: the process itself has the functions in the IDE, the
runtime library has them otherwise. -/
def loadContainer (dlopen : Dlopen τ ρ δ) (i : Api) (l : Loader τ ρ δ) :
    Result (i.Functions τ ρ) × Loader τ ρ δ :=
  let self_result := l.ask dlopen i .loadSelf
  match self_result.1.mapError noLabviewApi with
  | .ok container => (.ok container, self_result.2)
  | .error _ =>
      let result := self_result.2.ask dlopen i (.load LVRT_PATH)
      (result.1.mapError noLabviewApi, result.2)

/-- What is printed when the memory manager is not found. -/
def loadFailure (description : LVStatusCode → String) (e : LVInteropError) : String :=
  "Failed to load LabVIEW Memory Manager API: " ++ e.display description

/-- The initialisers of `MEMORY_API` and `SYNC_API`. -/
def initialise (dlopen : Dlopen τ ρ δ) (description : LVStatusCode → String) :
    (i : Api) → Loader τ ρ δ → Result (i.Functions τ ρ) × Loader τ ρ δ
  | .sync, l => loadContainer dlopen .sync l
  | .memory, l =>
      let result := loadContainer dlopen .memory l
      match result.1 with
      | .ok _ => result
      | .error e =>
          (result.1, { result.2 with printed := result.2.printed ++ [loadFailure description e] })

/-- What was asked for an API, and the outcome that is kept. -/
inductive Loaded (i : Api) :
    List (Request × Except String (i.Functions τ ρ)) → Option (Result (i.Functions τ ρ)) → Prop
  | never : Loaded i [] none
  | own (api : i.Functions τ ρ) : Loaded i [(.loadSelf, .ok api)] (some (.ok api))
  | lvrt (e : String) (api : i.Functions τ ρ) :
      Loaded i [(.loadSelf, .error e), (.load LVRT_PATH, .ok api)] (some (.ok api))
  | failed (e e' : String) :
      Loaded i [(.loadSelf, .error e), (.load LVRT_PATH, .error e')]
        (some (.error (noLabviewApi e')))

/-- The lines printed for the outcome of the memory manager. -/
def complaints (description : LVStatusCode → String) : Option (Result (MemoryApi τ)) → List String
  | some (.error e) => [loadFailure description e]
  | some (.ok _) | none => []

/-- Loading an API asks for it, and touches nothing else. -/
theorem loadContainer_spec (dlopen : Dlopen τ ρ δ) {i : Api} {l : Loader τ ρ δ}
    (hasked : l.asked i = []) :
    Loaded i ((loadContainer dlopen i l).2.asked i) (some (loadContainer dlopen i l).1) ∧
      (∀ j, j ≠ i → (loadContainer dlopen i l).2.asked j = l.asked j) ∧
      (loadContainer dlopen i l).2.printed = l.printed := by
  cases hself : (dlopen i .loadSelf l.dl).1 with
  | ok api =>
      simp only [loadContainer, Loader.ask, hself, Except.mapError, hasked, List.nil_append,
        Function.update_self]
      exact ⟨.own api, fun j hj => Function.update_of_ne hj _ _, trivial⟩
  | error e =>
      have hother : ∀ j, j ≠ i → ∀ a b,
          Function.update (Function.update l.asked i a) i b j = l.asked j := by
        intro j hj a b
        rw [Function.update_of_ne hj, Function.update_of_ne hj]
      cases hlvrt : (dlopen i (.load LVRT_PATH) (dlopen i .loadSelf l.dl).2).1 with
      | ok api =>
          simp only [loadContainer, Loader.ask, hself, hlvrt, Except.mapError, hasked,
            List.nil_append, Function.update_self, List.cons_append]
          exact ⟨.lvrt e api, fun j hj => hother j hj _ _, trivial⟩
      | error e' =>
          simp only [loadContainer, Loader.ask, hself, hlvrt, Except.mapError, hasked,
            List.nil_append, Function.update_self, List.cons_append]
          exact ⟨.failed e e', fun j hj => hother j hj _ _, trivial⟩

/-- So does its initialiser, and that of the memory manager prints its failure. -/
theorem initialise_spec (dlopen : Dlopen τ ρ δ) (description : LVStatusCode → String) (i : Api)
    (l : Loader τ ρ δ) :
    (initialise dlopen description i l).1 = (loadContainer dlopen i l).1 ∧
      (initialise dlopen description i l).2.asked = (loadContainer dlopen i l).2.asked := by
  cases i with
  | sync => exact ⟨rfl, rfl⟩
  | memory =>
      simp only [initialise]
      split <;> exact ⟨rfl, rfl⟩

/-- The invariant of outcomes and loader. -/
structure Loader.Settled (description : LVStatusCode → String)
    (outcomes : (i : Api) → Option (Result (i.Functions τ ρ))) (l : Loader τ ρ δ) : Prop where
  loaded : ∀ i, Loaded i (l.asked i) (outcomes i)
  printed : l.printed = complaints description (outcomes .memory)

/-- An initialiser runs on an API that was not asked for. -/
theorem Loaded.asked_eq_nil {i : Api} {asked : List (Request × Except String (i.Functions τ ρ))}
    (h : Loaded i asked none) : asked = [] := by
  cases h
  rfl

/-- The failure to load an API has its own code. -/
theorem Loaded.ofError {i : Api} {asked : List (Request × Except String (i.Functions τ ρ))}
    {e : LVInteropError} (h : Loaded i asked (some (.error e))) :
    LVStatusCode.ofError e = ⟨542001⟩ := by
  cases h
  rfl

/-- Where nothing was printed, the line of a failure is. -/
theorem initialise_printed (dlopen : Dlopen τ ρ δ) (description : LVStatusCode → String)
    {l : Loader τ ρ δ} (hasked : l.asked .memory = []) (hprinted : l.printed = []) :
    (initialise dlopen description .memory l).2.printed =
      complaints description (some (initialise dlopen description .memory l).1) := by
  have hp := (loadContainer_spec dlopen hasked).2.2
  rw [hprinted] at hp
  cases hr : (loadContainer dlopen .memory l).1 with
  | ok api => simp [initialise, hr, complaints, hp]
  | error e => simp [initialise, hr, complaints, hp]

/-- Each initialiser keeps the invariant. -/
theorem Loader.Settled.initialise {dlopen : Dlopen τ ρ δ} {description : LVStatusCode → String}
    {outcomes : (i : Api) → Option (Result (i.Functions τ ρ))} {l : Loader τ ρ δ}
    (h : l.Settled description outcomes) {i : Api} (hnone : outcomes i = none) :
    (LvInterop.initialise dlopen description i l).2.Settled description
      (Function.update outcomes i (some (LvInterop.initialise dlopen description i l).1)) := by
  have hasked : l.asked i = [] := by
    have hi := h.loaded i
    rw [hnone] at hi
    exact hi.asked_eq_nil
  obtain ⟨hloaded, hothers, hprinted⟩ := loadContainer_spec dlopen hasked
  obtain ⟨hresult, hreq⟩ := initialise_spec dlopen description i l
  constructor
  · intro j
    rw [hreq]
    by_cases hj : j = i
    · subst hj
      rw [Function.update_self, hresult]
      exact hloaded
    · rw [Function.update_of_ne hj, hothers j hj]
      exact h.loaded j
  · cases i with
    | memory =>
        rw [Function.update_self]
        exact initialise_printed dlopen description hasked (by rw [h.printed, hnone]; rfl)
    | sync =>
        rw [Function.update_of_ne (show Api.memory ≠ .sync from nofun), ← h.printed]
        exact hprinted

/-! ## what needs the functions -/

/-- What a program is compiled for. -/
structure Platform where
  width : PtrWidth
  LV_ENCODING : Encoding
  nd : (D : Nat) → (T : NumericArrayResizable) → Ndarray D T.Val

/-- A program that has found the memory manager. -/
def Platform.runtime (p : Platform) (api : MemoryApi τ) : Runtime τ where
  api := api
  width := p.width
  LV_ENCODING := p.LV_ENCODING
  nd := p.nd

/-- One operation on handles, whether the manager was found or not. -/
def Platform.run (p : Platform) (memoryApi : Result (MemoryApi τ)) (op : Op) (m : Machine τ) :
    Outcome LVInteropError UHandle × Machine τ :=
  match op with
  | .new value => m.create (some .sized) (OwnedUHandle.new memoryApi value)
  | .emptyString => m.create (some .lStr) (LStrOwned.emptyString memoryApi)
  | .fromData data => m.create (some .lStr) (LStrOwned.fromData memoryApi data)
  | .newEmpty D T => m.create (some (.lvArray D T)) (LVArrayOwned.newEmpty memoryApi p.width D T)
  | .tryClone self => m.create (m.types self) (OwnedUHandle.tryClone memoryApi self)
  | .tryToOwned self => m.create (m.types self) (self.tryToOwned memoryApi)
  | .cloneIntoPointer self other =>
      m.onVariable other (m.types self) (self.cloneIntoPointer memoryApi)
  | .set self value =>
      m.onVariable self none (Slot.onWorld fun h => LStrHandle.set memoryApi h value)
  | .setStr self value => m.onVariable self none
      (Slot.onWorld fun h => LStrHandle.setStr memoryApi p.LV_ENCODING h value)
  | .resizeArray self D T new_dims => m.onVariable self (some (.lvArray D T))
      (LVArrayHandle.resizeArray memoryApi p.width D T new_dims)
  | .copyFromNdarray self D T array => m.onVariable self (some (.lvArray D T))
      (LVArrayHandle.copyFromNdarray memoryApi (p.nd D T) array)
  | .setValueUnchecked self D T index value => m.onVariable self (some (.lvArray D T))
      (LVArrayHandle.setValueUnchecked p.width D T index value)
  | .drop self => m.release self (OwnedUHandle.drop memoryApi self)

/-- The text for a status that LabVIEW has none for. -/
def DEFAULT_STRING : String := "LabVIEW-Interop: Description not retrievable"

/-- `LVStatusCode::description`. -/
def LVStatusCode.description (memoryApi : Result (MemoryApi τ)) (LV_ENCODING : Encoding)
    (self : LVStatusCode) : String :=
  match memoryApi with
  | .ok api =>
      match api.errorCodeDescription self.code with
      | some error_text => LV_ENCODING.decode error_text
      | none => DEFAULT_STRING
  | .error _ => DEFAULT_STRING

/-- What the code of a library asks LabVIEW for. -/
inductive ApiCall where
  | handle (op : Op)
  | description (status : LVStatusCode)
  | post (reference : MagicCookie) (data : List UInt8)
  | set (occurrence : MagicCookie)

/-- What it gets; the data of an event may have been modified. -/
inductive Answer where
  | handle (outcome : Outcome LVInteropError UHandle)
  | description (text : String)
  | post (outcome : Outcome LVInteropError Unit) (data : List UInt8)
  | set (outcome : Outcome LVInteropError Unit)

/-- The program and LabVIEW. -/
structure Session (τ ρ : Type) where
  machine : Machine τ
  events : ρ

/-- The API a call goes to. -/
def ApiCall.api : ApiCall → Api
  | .handle _ | .description _ => .memory
  | .post _ _ | .set _ => .sync

/-- One call, with the outcome of loading its API. -/
def ApiCall.run (p : Platform) : (call : ApiCall) → Result (call.api.Functions τ ρ) → Session τ ρ →
    Answer × Session τ ρ
  | .handle op, memoryApi, s =>
      let r := p.run memoryApi op s.machine
      (.handle r.1, { s with machine := r.2 })
  | .description status, memoryApi, s =>
      (.description (status.description memoryApi p.LV_ENCODING), s)
  | .post reference data, syncApi, s =>
      let r := LVUserEvent.post syncApi reference (data, s.events)
      (.post r.1 r.2.1, { s with events := r.2.2 })
  | .set occurrence, syncApi, s =>
      let r := Occurence.set syncApi occurrence s.events
      (.set r.1, { s with events := r.2 })

/-- What happens in the process: its libraries change, or a call. -/
inductive Happening (δ : Type) where
  | libraries (change : δ → δ)
  | call (call : ApiCall)

/-- The same for cells that are filled at first use. -/
def Happening.lazily (p : Platform) : Happening δ →
    LazyEvent (fun i : Api => Result (i.Functions τ ρ)) (Loader τ ρ δ) (Session τ ρ) Answer
  | .libraries change => .outside fun l => { l with dl := change l.dl }
  | .call c => .use c.api (c.run p)

/-- The calls among what happens, and the operations on handles among them. -/
def Happening.call? : Happening δ → Option ApiCall
  | .libraries _ => none
  | .call c => some c

def ApiCall.op? : ApiCall → Option Op
  | .handle op => some op
  | .description _ | .post _ _ | .set _ => none

/-- The calls of a program that knows both outcomes from the start. -/
def Platform.session (p : Platform) (outcomes : (i : Api) → Result (i.Functions τ ρ)) :
    List ApiCall → Session τ ρ → List Answer × Session τ ρ
  | [], s => ([], s)
  | c :: calls, s =>
      let r := c.run p (outcomes c.api) s
      let rest := p.session outcomes calls r.2
      (r.1 :: rest.1, rest.2)

/-- A process before its first call. -/
def Session.process (s : Session τ ρ) (dl : δ) :
    Lazily (fun i : Api => Result (i.Functions τ ρ)) (Loader τ ρ δ) (Session τ ρ) :=
  ⟨fun _ => none, .start dl, s⟩

/-! ## runs -/

variable {p : Platform} {dlopen : Dlopen τ ρ δ} {description : LVStatusCode → String}
variable {hs : List (Happening δ)} {s : Session τ ρ} {dl : δ} {answers : List Answer}
variable {q : Lazily (fun i : Api => Result (i.Functions τ ρ)) (Loader τ ρ δ) (Session τ ρ)}

theorem Platform.eager_lazily (p : Platform) (outcomes : (i : Api) → Result (i.Functions τ ρ))
    (hs : List (Happening δ)) (s : Session τ ρ) :
    eager outcomes (hs.map (Happening.lazily p)) s =
      p.session outcomes (hs.filterMap Happening.call?) s := by
  induction hs generalizing s with
  | nil => rfl
  | cons e hs ih =>
      cases e with
      | libraries change => exact ih s
      | call c =>
          simp only [List.map_cons, Happening.lazily, eager, ih, List.filterMap_cons,
            Happening.call?, session]

/-- The calls are answered as if the outcomes had been known from the start. -/
theorem session_of_run
    (h : LazyRun (initialise dlopen description) (hs.map (Happening.lazily p)) (s.process dl)
      answers q) (other : (i : Api) → Result (i.Functions τ ρ)) :
    p.session (fun i => (q.cells i).getD (other i)) (hs.filterMap Happening.call?) s =
      (answers, q.state) := by
  rw [← Platform.eager_lazily]
  exact h.eager other

/-- The invariant holds after every run. -/
theorem settled_of_run
    (h : LazyRun (initialise dlopen description) (hs.map (Happening.lazily p)) (s.process dl)
      answers q) : q.env.Settled description q.cells := by
  refine h.invariant (I := fun c l => l.Settled description c) ?_ ?_ ?_
  · intro g hg c l hl
    obtain ⟨e, -, he⟩ := List.mem_map.mp hg
    cases e with
    | libraries change =>
        cases he
        exact ⟨hl.loaded, hl.printed⟩
    | call c => cases he
  · exact fun i c l hnone hl => hl.initialise hnone
  · exact ⟨fun i => .never, rfl⟩

/-- **Loading settles.**  Whatever happens and in which order, each API was
asked for at most once, first in the process and then, only if it was not
there, in the runtime library; the outcome is kept, the failure of the memory
manager was printed once, and the calls were answered as if all that had been
known from the start. -/
theorem loading_settles
    (h : LazyRun (initialise dlopen description) (hs.map (Happening.lazily p)) (s.process dl)
      answers q) :
    (∀ i, Loaded i (q.env.asked i) (q.cells i)) ∧
      q.env.printed = complaints description (q.cells .memory) ∧
      ∀ other : (i : Api) → Result (i.Functions τ ρ),
        p.session (fun i => (q.cells i).getD (other i)) (hs.filterMap Happening.call?) s =
          (answers, q.state) := by
  have hsettled := settled_of_run h
  exact ⟨hsettled.loaded, hsettled.printed, session_of_run h⟩

/-- Outcomes in which the memory manager has the given one. -/
def withMemory (memoryApi : Result (MemoryApi τ)) : (i : Api) → Result (i.Functions τ ρ)
  | .memory => memoryApi
  | .sync => .error (noLabviewApi "")

/-- A run in which loading the memory manager has the outcome, or none yet. -/
theorem session_of_memory {memoryApi : Result (MemoryApi τ)}
    (h : LazyRun (initialise dlopen description) (hs.map (Happening.lazily p)) (s.process dl)
      answers q) (hmem : ∀ r, q.cells .memory = some r → r = memoryApi) :
    ∃ outcomes : (i : Api) → Result (i.Functions τ ρ), outcomes .memory = memoryApi ∧
      p.session outcomes (hs.filterMap Happening.call?) s = (answers, q.state) := by
  refine ⟨_, ?_, session_of_run h (withMemory memoryApi)⟩
  cases hcell : q.cells .memory with
  | none => rfl
  | some r => exact hmem r hcell

/-! ## with the manager -/

/-- A process in which the runtime library may be there, and has the functions
of the small manager. -/
def Bump.openLibrary : Dlopen Bump Unit Bool := fun i request present =>
  match i, request, present with
  | .memory, .load _, true => (.ok (api .w64), true)
  | _, _, present => (.error "undefined symbol", present)

/-- The program is one for 64-bit Linux. -/
def Bump.platform : Platform where
  width := .w64
  LV_ENCODING := windows1252Encoding
  nd := (runtime .w64).nd

/-- What becomes of a process in which the library comes and goes. -/
def Bump.process (present : Bool) : List Answer ×
    Lazily (fun i : Api => Result (i.Functions Bump Unit)) (Loader Bump Unit Bool)
      (Session Bump Unit) :=
  force (initialise openLibrary fun _ => "")
    ([.call (.set ⟨3⟩), .libraries fun _ => present, .call (.handle .emptyString),
      .libraries fun _ => false, .call (.handle (.new [1, 2]))].map (Happening.lazily platform))
    (Session.process ⟨machine [], ()⟩ false)

theorem loading_settles_bump :
    (∀ i, Loaded i ((Bump.process true).2.env.asked i) ((Bump.process true).2.cells i)) ∧
      (Bump.process true).2.env.printed = [] :=
  ⟨(loading_settles (LazyRun.force _ _)).1, (loading_settles (LazyRun.force _ _)).2.1⟩

/-- The operation asks for the manager, whatever it finds in memory. -/
def Op.Asks : Op → Prop
  | .resizeArray _ _ _ _ | .copyFromNdarray _ _ _ _ | .setValueUnchecked _ _ _ _ _ | .drop _ =>
      False
  | _ => True

/-- The operation stores elements. -/
def Op.Stores : Op → Prop
  | .copyFromNdarray _ _ _ _ | .setValueUnchecked _ _ _ _ _ => True
  | _ => False

/-- The worlds differ in the content of memory only. -/
def World.SameTable (w w' : World τ) : Prop := ∃ mem, w' = { w with mem := mem }

theorem World.SameTable.refl (w : World τ) : w.SameTable w := ⟨w.mem, rfl⟩

theorem World.SameTable.trans {w₁ w₂ w₃ : World τ} (h₁ : w₁.SameTable w₂) (h₂ : w₂.SameTable w₃) :
    w₁.SameTable w₃ := by
  obtain ⟨mem, rfl⟩ := h₁
  obtain ⟨mem', rfl⟩ := h₂
  exact ⟨mem', rfl⟩

/-- So do the slots of a variable. -/
def Slot.SameTable (s s' : Slot τ) : Prop := s'.handle = s.handle ∧ s.world.SameTable s'.world

theorem Slot.SameTable.refl (s : Slot τ) : s.SameTable s := ⟨rfl, .refl _⟩

theorem Slot.SameTable.trans {s₁ s₂ s₃ : Slot τ} (h₁ : s₁.SameTable s₂) (h₂ : s₂.SameTable s₃) :
    s₁.SameTable s₃ :=
  ⟨h₂.1.trans h₁.1, h₁.2.trans h₂.2⟩

/-- Looking through a handle changes nothing. -/
theorem UHandle.leaves_deref {α : Type} (self : UHandle)
    {f : FatPtr → Exec (World τ) LVInteropError α} (hf : ∀ a, (f a).Leaves Eq) :
    (self.deref >>= f).Leaves Eq :=
  Exec.Leaves.bind (R := Eq) (fun _ _ _ => Eq.trans) (Exec.leaves_unwrapRead Eq.refl _) hf

theorem Slot.leaves_onWorld {α : Type} {x : UHandle → Exec (World τ) LVInteropError α}
    (hx : ∀ k, (x k).Leaves Eq) : (Slot.onWorld x).Leaves Eq := by
  intro s
  have hw := hx s.handle s.world
  rw [Slot.onWorld, ← hw]

namespace LVArrayHandle

variable {D : Nat} {T : NumericArrayResizable}

theorem leaves_sameDims (width : PtrWidth) (dims : LVArrayDims D) :
    (sameDims width D dims : Exec (Slot τ) LVInteropError Bool).Leaves Eq := by
  cases width with
  | w32 => exact fun _ => rfl
  | w64 => exact Slot.leaves_onWorld fun self => self.leaves_deref fun a _ => rfl

/-- Without the manager an array stays as it is. -/
theorem leaves_resizeArray (e : LVInteropError) (width : PtrWidth) (dims : LVArrayDims D) :
    (resizeArray (.error e : Result (MemoryApi τ)) width D T dims).Leaves Eq := by
  refine Exec.Leaves.bind (R := Eq) (fun _ _ _ => Eq.trans) (leaves_sameDims width dims) fun same => ?_
  cases same with
  | true => exact fun _ => rfl
  | false => exact fun _ => rfl

/-- Or gets other elements. -/
theorem leaves_setValueUnchecked (width : PtrWidth) (index : Nat) (value : T.Val) :
    (setValueUnchecked width D T index value :
      Exec (Slot τ) LVInteropError Unit).Leaves Slot.SameTable := by
  intro s
  have hstore : (do
      let array ← s.handle.deref
      Exec.modify (LVArray.setValueUnchecked width D T array.addr index value) :
        Exec (World τ) LVInteropError Unit).Leaves World.SameTable :=
    Exec.Leaves.bind (fun _ _ _ => .trans) (Exec.leaves_unwrapRead .refl _) fun _ _ => ⟨_, rfl⟩
  exact ⟨rfl, hstore s.world⟩

theorem leaves_copyFromNdarray (e : LVInteropError) (nd : Ndarray D T.Val)
    (array : ArrayView D T.Val) :
    (copyFromNdarray (.error e : Result (MemoryApi τ)) nd array).Leaves Slot.SameTable := by
  have hdim : (Slot.onWorld fun self => do
      let lv_array ← self.deref
      LVArray.ndarrayDim D lv_array.addr : Exec (Slot τ) LVInteropError (List Nat)).Leaves Eq := by
    refine Slot.leaves_onWorld fun self => self.leaves_deref fun a w => ?_
    rw [LVArray.ndarrayDim, LVArrayDims.intoUsizeArray_eq_unwrap]
    cases (LVArray.dimSizes D a.addr w).tryToUsizeArray with
    | ok l => rfl
    | error e => rfl
  have hcopy : (Slot.onWorld fun self => do
      let lv_array ← Exec.tryRead self.asRefMut
      Exec.modify (LVArray.copyElements D T lv_array.addr (nd.iter array)) :
        Exec (Slot τ) LVInteropError Unit).Leaves Slot.SameTable := by
    have hstage : ∀ self : UHandle, ((do
        let lv_array ← Exec.tryRead self.asRefMut
        Exec.modify (LVArray.copyElements D T lv_array.addr (nd.iter array)) :
          Exec (World τ) LVInteropError Unit)).Leaves World.SameTable := fun self =>
      Exec.Leaves.bind (R := World.SameTable) (fun _ _ _ => .trans) .refl fun _ _ => ⟨_, rfl⟩
    exact fun s => ⟨rfl, hstage s.handle s.world⟩
  have htrans : ∀ a b c : Slot τ, a.SameTable b → b.SameTable c → a.SameTable c :=
    fun _ _ _ => Slot.SameTable.trans
  have hsame : ∀ {α : Type} {x : Exec (Slot τ) LVInteropError α}, x.Leaves Eq →
      x.Leaves Slot.SameTable := by
    intro α x hx s
    rw [← hx s]
    exact .refl s
  refine (hsame hdim).bind htrans fun own_dim => ?_
  by_cases hd : array.dim = own_dim
  · rw [if_neg (not_not.mpr hd)]
    exact hcopy
  · rw [if_pos hd]
    refine Exec.Leaves.bind htrans (fun s => .refl s) fun new_dims => ?_
    exact Exec.Leaves.bind htrans (hsame (leaves_resizeArray e .w64 new_dims)) fun _ => hcopy

end LVArrayHandle

/-- What an operation answers, and what it leaves, without the manager. -/
structure Op.Denied (e : LVInteropError) (op : Op) (m : Machine τ)
    (r : Outcome LVInteropError UHandle × Machine τ) : Prop where
  answer : op.Asks → r.1 = .err e
  table : m.world.SameTable r.2.world
  world : ¬ op.Stores → r.2.world = m.world
  owned : r.2.owned.Sublist m.owned

theorem Machine.denied_create {e : LVInteropError} {op : Op} (m : Machine τ) (ty : Option HandleTy)
    {x : Exec (World τ) LVInteropError UHandle} (hx : x m.world = (.err e, m.world)) :
    op.Denied e m (m.create ty x) := by
  rw [create, hx]
  exact ⟨fun _ => rfl, .refl _, fun _ => rfl, .refl _⟩

theorem Machine.denied_onVariable {e : LVInteropError} {op : Op} (m : Machine τ) (h : UHandle)
    {ty : Option HandleTy} {x : Exec (Slot τ) LVInteropError Unit}
    (hask : op.Asks → (x ⟨h, m.world⟩).1 = .err e)
    (hx : Slot.SameTable ⟨h, m.world⟩ (x ⟨h, m.world⟩).2)
    (hw : ¬ op.Stores → (x ⟨h, m.world⟩).2.world = m.world) :
    op.Denied e m (m.onVariable h ty x) := by
  refine ⟨fun ha => ?_, hx.2, hw, .refl _⟩
  simp only [onVariable, hask ha, Outcome.map]

/-- **Without the manager** no handle is made and none is resized, copied or
freed; only stores into arrays still take place. -/
theorem Platform.run_denied (p : Platform) (e : LVInteropError) (op : Op) (m : Machine τ) :
    op.Denied e m (p.run (.error e) op m) := by
  cases op with
  | new value => exact m.denied_create (some .sized) rfl
  | emptyString | fromData value => exact m.denied_create (some .lStr) rfl
  | newEmpty D T => exact m.denied_create (some (.lvArray D T)) rfl
  | tryClone self | tryToOwned self => exact m.denied_create (m.types self) rfl
  | cloneIntoPointer self other =>
      exact m.denied_onVariable other (fun _ => rfl) (.refl _) fun _ => rfl
  | set self value | setStr self value =>
      exact m.denied_onVariable self (fun _ => rfl) (.refl _) fun _ => rfl
  | resizeArray self D T dims =>
      have hx := LVArrayHandle.leaves_resizeArray (T := T) e p.width dims ⟨self, m.world⟩
      refine m.denied_onVariable self False.elim ?_ fun _ => ?_
      · rw [← hx]
        exact .refl _
      · rw [← hx]
  | copyFromNdarray self D T array =>
      exact m.denied_onVariable self False.elim
        (LVArrayHandle.leaves_copyFromNdarray e (p.nd D T) array _) fun hs => absurd trivial hs
  | setValueUnchecked self D T index value =>
      exact m.denied_onVariable self False.elim
        (LVArrayHandle.leaves_setValueUnchecked p.width index value _) fun hs => absurd trivial hs
  | drop self => exact ⟨False.elim, .refl _, fun _ => rfl, List.erase_sublist⟩

/-- What a call gets without the manager. -/
def ApiCall.Denied (e : LVInteropError) : ApiCall → Answer → Prop
  | .handle op, .handle o => op.Asks → o = .err e
  | .description _, .description text => text = DEFAULT_STRING
  | .post _ _, .post _ _ | .set _, .set _ => True
  | _, _ => False

theorem Platform.session_denied (p : Platform) {outcomes : (i : Api) → Result (i.Functions τ ρ)}
    {e : LVInteropError} (hmem : outcomes .memory = .error e) (calls : List ApiCall)
    (s : Session τ ρ) :
    List.Forall₂ (ApiCall.Denied e) calls (p.session outcomes calls s).1 ∧
      s.machine.world.SameTable (p.session outcomes calls s).2.machine.world ∧
      ((∀ op ∈ calls.filterMap ApiCall.op?, ¬ op.Stores) →
        (p.session outcomes calls s).2.machine.world = s.machine.world) ∧
      (p.session outcomes calls s).2.machine.owned.Sublist s.machine.owned := by
  induction calls generalizing s with
  | nil => exact ⟨.nil, .refl _, fun _ => rfl, .refl _⟩
  | cons c calls ih =>
      obtain ⟨hanswers, htable, hworld, howned⟩ := ih (c.run p (outcomes c.api) s).2
      cases c with
      | handle op =>
          have hd := p.run_denied e op s.machine
          rw [← hmem] at hd
          refine ⟨.cons hd.answer hanswers, hd.table.trans htable, fun hs => ?_,
            howned.trans hd.owned⟩
          rw [List.filterMap_cons] at hs
          have hop := List.forall_mem_cons.mp hs
          exact (hworld hop.2).trans (hd.world hop.1)
      | description status =>
          refine ⟨.cons ?_ hanswers, htable, hworld, howned⟩
          simp only [ApiCall.run, ApiCall.Denied, ApiCall.api, hmem, LVStatusCode.description]
      | post reference data => exact ⟨.cons trivial hanswers, htable, hworld, howned⟩
      | set occurrence => exact ⟨.cons trivial hanswers, htable, hworld, howned⟩

/-- **A process that does not find the manager** prints why, once, answers each
request for it with the error of its last attempt, which is known to LabVIEW as
542001, describes no status, and changes nothing but the elements of arrays;
events and occurrences go on. -/
theorem unavailable_run {e : LVInteropError}
    (h : LazyRun (initialise dlopen description) (hs.map (Happening.lazily p)) (s.process dl)
      answers q) (hmem : q.cells .memory = some (.error e)) :
    q.env.printed = [loadFailure description e] ∧ LVStatusCode.ofError e = ⟨542001⟩ ∧
      List.Forall₂ (ApiCall.Denied e) (hs.filterMap Happening.call?) answers ∧
      s.machine.world.SameTable q.state.machine.world ∧
      ((∀ op ∈ (hs.filterMap Happening.call?).filterMap ApiCall.op?, ¬ op.Stores) →
        q.state.machine.world = s.machine.world) ∧
      q.state.machine.owned.Sublist s.machine.owned := by
  have hsettled := settled_of_run h
  have hprinted := hsettled.printed
  have hloaded := hsettled.loaded .memory
  rw [hmem] at hprinted hloaded
  obtain ⟨outcomes, hout, hsession⟩ := session_of_memory h fun r hr =>
    Option.some.inj (hr.symm.trans hmem)
  have hdenied := p.session_denied hout (hs.filterMap Happening.call?) s
  rw [hsession] at hdenied
  exact ⟨hprinted, hloaded.ofError, hdenied⟩

theorem unavailable_run_bump : (Bump.process false).2.env.printed =
    [loadFailure (fun _ => "") (noLabviewApi "undefined symbol")] ∧
      (Bump.process false).2.state.machine.world = (Bump.machine []).world :=
  have h := unavailable_run (q := (Bump.process false).2) (LazyRun.force _ _) rfl
  ⟨h.1, h.2.2.2.2.1 (List.forall_mem_cons.mpr ⟨id, List.forall_mem_cons.mpr ⟨id, nofun⟩⟩)⟩

end LvInterop
