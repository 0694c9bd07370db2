import LvInterop.ErrorCluster
import LvInterop.Resize
import LvInterop.Sync

/-!
# LvInterop.Forward

Status codes on their way through `Result`.

Six operations end by handing a LabVIEW status to `to_specific_result`.  The
code comes back from their `Result`, and from an error cluster it is written
to, exactly when it is one the conversion knows (`Forwarding.forwards_iff`).
-/

namespace LvInterop

open Lib

variable {τ ρ : Type}

/-- A call of an operation that forwards a status, with the state it runs on. -/
inductive Forwarding (τ ρ : Type) where
  | resize (self : UHandle) (desired_size : Nat) (w : World τ)
  | setString (self : UHandle) (value : List UInt8) (w : World τ)
  | cloneIntoPointer (self : UHandle) (other : Slot τ)
  | resizeArray (D : Nat) (T : NumericArrayResizable) (new_dims : LVArrayDims D) (self : Slot τ)
  | post (reference : MagicCookie) (data : List UInt8 × ρ)
  | setOccurence (self : MagicCookie) (state : ρ)

namespace Forwarding

variable (api : MemoryApi τ) (syncApi : SyncApi ρ) (width : PtrWidth)

/-- The status LabVIEW returns. -/
def status : Forwarding τ ρ → LVStatusCode
  | resize self n w => (api.setHandleSize self n w).1
  | setString self v w => (api.setHandleSize self (LStr.sizeWithData v) w).1
  | cloneIntoPointer self other => (UHandle.copyHandle api self other).1
  | resizeArray D T dims self =>
      (LVArrayHandle.numericArrayResize D T api (dims.elementCount width) self).1
  | post reference data => (syncApi.postLvUserEvent reference data).1
  | setOccurence self state => (syncApi.occur self state).1

/-- How the operation ends. -/
def outcome : Forwarding τ ρ → Outcome LVInteropError Unit
  | resize self n w => (self.resize (.ok api) n w).1
  | setString self v w => (LStrHandle.set (.ok api) self v w).1
  | cloneIntoPointer self other => (self.cloneIntoPointer (.ok api) other).1
  | resizeArray D T dims self => (LVArrayHandle.resizeArray (.ok api) width D T dims self).1
  | post reference data => (LVUserEvent.post (.ok syncApi) reference data).1
  | setOccurence self state => (Occurence.set (.ok syncApi) self state).1

/-- The operation's other checks pass: the handles it looks at, before the call
or after a granted one, can be dereferenced, the source of a copy is valid, and
an array is not resized to what it is. -/
def Checks : Forwarding τ ρ → Prop
  | resize .. => True
  | setString self v w => ∀ w', api.setHandleSize self (LStr.sizeWithData v) w = (.SUCCESS, w') →
      ∃ l_str, self.asRef w' = .ok l_str
  | cloneIntoPointer self other => self.valid (.ok api) other.world = true
  | resizeArray D T dims self =>
      ¬ LVArrayHandle.Unchanged width dims self ∧
      (width = .w64 → ∃ array, self.handle.asRef self.world = .ok array) ∧
      ∀ self', LVArrayHandle.numericArrayResize D T api (dims.elementCount width) self =
        (.SUCCESS, self') → ∃ array, self'.handle.asRef self'.world = .ok array
  | post .. => True
  | setOccurence .. => True

end Forwarding

/-- The status `c` survives in a result: success is `Ok`, and any other code is
found again in the `Result`, and in the cluster the error is written to. -/
def LVStatusCode.Survives (c : LVStatusCode) (o : Outcome LVInteropError Unit) : Prop :=
  (o = .ok () ↔ c = .SUCCESS) ∧
  (c ≠ .SUCCESS → ∃ e, o = .err e ∧ LVStatusCode.ofResult (.error e : Result Unit) = c ∧
    ∀ (τ σ : Type) (memoryApi : Result (MemoryApi τ)) (LV_ENCODING : Encoding)
      (description : LVStatusCode → String) (env : Env τ σ) (cluster : ErrorCluster),
      env.cluster = some cluster →
      ((ErrorClusterPtr.writeError memoryApi LV_ENCODING (LVInteropError.toLvError description) e
        env).2.cluster).map ErrorCluster.code = some c)

/-- A status survives `to_specific_result` exactly when it is a known one. -/
theorem LVStatusCode.survives_iff (c : LVStatusCode) :
    c.Survives (.ofExcept (c.toSpecificResult ())) ↔ c.Known := by
  rw [← ofResult_toSpecificResult_iff c ()]
  by_cases hc : c = .SUCCESS
  · subst hc
    exact ⟨fun _ => rfl, fun _ => ⟨⟨fun _ => rfl, fun _ => rfl⟩, fun h => absurd rfl h⟩⟩
  · obtain ⟨e, he⟩ := toSpecificResult_of_ne hc ()
    rw [he]
    constructor
    · rintro ⟨-, hs⟩
      obtain ⟨e', he', hcode, -⟩ := hs hc
      obtain rfl := Outcome.err.inj he'
      exact hcode
    · intro hcode
      refine ⟨⟨nofun, fun h => absurd h hc⟩, fun _ => ⟨e, rfl, hcode, ?_⟩⟩
      intro τ σ memoryApi LV_ENCODING description env cluster hcl
      rw [ErrorClusterPtr.writeError_run memoryApi LV_ENCODING _ e hcl]
      exact congrArg some hcode

/-! ## the six operations -/

/-- An operation that is refused ends with the converted status. -/
theorem LVStatusCode.ofExcept_of_ne {c : LVStatusCode} (hc : c ≠ .SUCCESS) :
    ∃ e, c.toSpecificResult () = .error e ∧ Outcome.ofExcept (c.toSpecificResult ()) = .err e := by
  obtain ⟨e, he⟩ := toSpecificResult_of_ne hc ()
  exact ⟨e, he, by rw [he, Outcome.ofExcept_error]⟩

namespace Forwarding

variable {api : MemoryApi τ} {syncApi : SyncApi ρ} {width : PtrWidth}

theorem outcome_setString {self : UHandle} {v : List UInt8} {w : World τ}
    (hc : (setString self v w : Forwarding τ ρ).Checks api width) :
    (LStrHandle.set (.ok api) self v w).1 =
      .ofExcept ((api.setHandleSize self (LStr.sizeWithData v) w).1.toSpecificResult ()) := by
  rcases hr : api.setHandleSize self (LStr.sizeWithData v) w with ⟨st, w'⟩
  have hrun := @UHandle.resize_run _ api self (LStr.sizeWithData v) w
  rw [hr] at hrun
  by_cases hst : st = .SUCCESS
  · subst hst
    obtain ⟨l_str, hl⟩ := hc w' hr
    rw [LStrHandle.set, Exec.bind_of_ok hrun,
      Exec.bind_of_ok (Exec.tryRead_of_ok (f := self.asRefMut) hl)]
    rfl
  · obtain ⟨e, -, he⟩ := LVStatusCode.ofExcept_of_ne hst
    rw [he] at hrun
    rw [LStrHandle.set, Exec.bind_of_err hrun, he]

theorem outcome_resizeArray {D : Nat} {T : NumericArrayResizable} {dims : LVArrayDims D}
    {self : Slot τ} (hc : (resizeArray D T dims self : Forwarding τ ρ).Checks api width) :
    (LVArrayHandle.resizeArray (.ok api) width D T dims self).1 = .ofExcept
      ((LVArrayHandle.numericArrayResize D T api (dims.elementCount width) self).1.toSpecificResult
        ()) := by
  obtain ⟨hun, href, hafter⟩ := hc
  obtain ⟨hun', -⟩ | ⟨hw, ⟨e, he⟩, -⟩ | ⟨-, hsame⟩ := LVArrayHandle.sameDims_cases width dims self
  · exact absurd hun' hun
  · obtain ⟨array, ha⟩ := href hw
    simp [ha] at he
  · rcases hr : LVArrayHandle.numericArrayResize D T api (dims.elementCount width) self with
      ⟨st, self'⟩
    by_cases hst : st = .SUCCESS
    · subst hst
      obtain ⟨array, ha⟩ := hafter self' hr
      rw [LVArrayHandle.resizeArray_of_granted hsame hr ha]
      rfl
    · obtain ⟨e, he, ho⟩ := LVStatusCode.ofExcept_of_ne hst
      rw [LVArrayHandle.resizeArray_of_refused hsame hr he, ho]

/-- What an operation whose other checks pass returns is the converted status. -/
theorem outcome_eq {f : Forwarding τ ρ} (hc : f.Checks api width) :
    f.outcome api syncApi width = .ofExcept ((f.status api syncApi width).toSpecificResult ()) := by
  cases f with
  | resize self n w => rfl
  | setString self v w => exact outcome_setString hc
  | cloneIntoPointer self other =>
      rw [outcome, UHandle.cloneIntoPointer_of_valid hc]
      rfl
  | resizeArray D T dims self => exact outcome_resizeArray hc
  | post reference data => rfl
  | setOccurence self state => rfl

/-- **Status codes survive exactly when they are known**: success, the
discriminants of `MgError`, and the code of the conversion's own error. -/
theorem forwards_iff {f : Forwarding τ ρ} (hc : f.Checks api width) :
    (f.status api syncApi width).Survives (f.outcome api syncApi width) ↔
      (f.status api syncApi width).Known := by
  rw [outcome_eq hc]
  exact LVStatusCode.survives_iff _

end Forwarding

/-- A support manager that knows no event and no occurrence. -/
def mgArgErrSync : SyncApi Unit where
  postLvUserEvent _ s := (⟨1⟩, s)
  occur _ s := (⟨1⟩, s)

/-- The status of `DSSetHandleSize` in a process that answers `code` next. -/
def Bump.refuseResize (code : Int32) : Forwarding Bump Unit :=
  .resize ⟨1⟩ 8 (Bump.withArray .w64 Bump.noElements [code])

theorem forwards_iff_bump : LVStatusCode.Survives ⟨2⟩
    ((Bump.refuseResize 2).outcome (Bump.api .w64) mgArgErrSync .w64) :=
  (@Forwarding.forwards_iff _ _ (Bump.api .w64) mgArgErrSync .w64 (Bump.refuseResize 2) trivial).mpr
    (.inr (.inl ⟨.mFullErr, rfl⟩))

/-- `mZoneErr`, which `DSSetHandleSize` is documented to return, does not
survive: it comes back as the code of the failed conversion. -/
theorem not_forwards : ¬ LVStatusCode.Survives
    ((Bump.refuseResize 3).status (Bump.api .w64) mgArgErrSync .w64)
    ((Bump.refuseResize 3).outcome (Bump.api .w64) mgArgErrSync .w64) := by
  rintro ⟨-, hs⟩
  obtain ⟨e, he, hcode, -⟩ := hs (by decide)
  have hout : (Bump.refuseResize 3).outcome (Bump.api .w64) mgArgErrSync .w64 =
      .err (.internalError .invalidMgErrorCode) := rfl
  obtain rfl := Outcome.err.inj (hout.symm.trans he)
  revert hcode
  decide

end LvInterop
