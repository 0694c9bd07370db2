import LvInterop.LStr

/-!
# LvInterop.ErrorCluster

The error cluster (`types/lv_errors.rs`, `types/boolean.rs`): a status byte, a
code and a string handle, and the wrappers that run a closure under it.

The wrappers run on an `Env`: what the cluster pointer points to, the memory
shared with LabVIEW, and whatever else the closures share.  A closure borrows
neither the cluster nor the wrapper, so it works on the last two.
-/

namespace LvInterop

open Lib

variable {τ σ ε R : Type}

/-! ## booleans and clusters -/

/-- `LVBool`: any byte but zero is true. -/
structure LVBool where
  value : UInt8
deriving DecidableEq, Repr

def LV_FALSE : LVBool := ⟨0⟩
def LV_TRUE : LVBool := ⟨1⟩

/-- `From<bool> for LVBool`. -/
def LVBool.ofBool : Bool → LVBool
  | true => LV_TRUE
  | false => LV_FALSE

/-- `From<LVBool> for bool`. -/
def LVBool.toBool (self : LVBool) : Bool := self.value ≠ 0

/-- `ErrorCluster`. -/
structure ErrorCluster where
  status : LVBool
  code : LVStatusCode
  source : UHandle
deriving DecidableEq, Repr

/-- `ErrorCluster::is_err`. -/
def ErrorCluster.isErr (self : ErrorCluster) : Bool := self.status.toBool

/-- `format_error_source`. -/
def formatErrorSource (source description : String) : String :=
  if source = "" then "<ERR>\n" ++ description
  else if description = "" then source
  else source ++ "\n<ERR>\n" ++ description

/-- `ToLvError`, with its default methods. -/
structure ToLvError (ε : Type) where
  code : ε → LVStatusCode := fun _ => .ofMgError .bogusError
  isError : ε → Bool := fun _ => true
  source : ε → String := fun _ => ""
  description : ε → String

/-- `ToLvError for LVInteropError`; `description` is the text LabVIEW has for a
status code. -/
def LVInteropError.toLvError (description : LVStatusCode → String) : ToLvError LVInteropError where
  code := .ofError
  source error := error.source.getD ""
  description error := error.display description

/-- What a wrapper runs on. -/
structure Env (τ σ : Type) where
  cluster : Option ErrorCluster
  world : World τ
  shared : σ

/-- A closure that returns a `Result`. -/
abbrev Closure (τ σ ε R : Type) : Type := World τ × σ → Except ε R × (World τ × σ)

namespace ErrorCluster

variable (memoryApi : Result (MemoryApi τ)) (LV_ENCODING : Encoding)

/-- `ErrorCluster::set_source`. -/
def setSource (source description : String) :
    Exec (ErrorCluster × World τ) LVInteropError Unit := fun s =>
  let r := LStrHandle.setStr memoryApi LV_ENCODING s.1.source
    (formatErrorSource source description) s.2
  (r.1, (s.1, r.2))

/-- The common part of `set_warning` and `set_error`. -/
def setState (status : LVBool) (code : LVStatusCode) (source description : String) :
    Exec (ErrorCluster × World τ) LVInteropError Unit := do
  Exec.modify fun s => ({ s.1 with code := code }, s.2)
  Exec.modify fun s => ({ s.1 with status := status }, s.2)
  setSource memoryApi LV_ENCODING source description

/-- `ErrorCluster::set_warning`. -/
def setWarning (code : LVStatusCode) (source description : String) :
    Exec (ErrorCluster × World τ) LVInteropError Unit :=
  setState memoryApi LV_ENCODING LV_FALSE code source description

/-- `ErrorCluster::set_error`. -/
def setError (code : LVStatusCode) (source description : String) :
    Exec (ErrorCluster × World τ) LVInteropError Unit :=
  setState memoryApi LV_ENCODING LV_TRUE code source description

end ErrorCluster

namespace ErrorClusterPtr

variable (memoryApi : Result (MemoryApi τ)) (LV_ENCODING : Encoding)

/-- `Deref` for the pointer, which panics on null. -/
def deref : Exec (Env τ σ) LVInteropError ErrorCluster :=
  Exec.unwrapRead fun env =>
    match env.cluster with
    | some cluster => .ok cluster
    | none => .error (.internalError .invalidHandle)

/-- `ToLvError::write_error`. -/
def writeError (E : ToLvError ε) (self : ε) : Exec (Env τ σ) LVInteropError Unit := fun env =>
  match env.cluster with
  | none => (.err (.internalError .invalidHandle), env)
  | some cluster =>
      let r :=
        if E.isError self then
          ErrorCluster.setError memoryApi LV_ENCODING (E.code self) (E.source self)
            (E.description self) (cluster, env.world)
        else
          ErrorCluster.setWarning memoryApi LV_ENCODING (E.code self) (E.source self)
            (E.description self) (cluster, env.world)
      (r.1, { env with cluster := some r.2.1, world := r.2.2 })

/-- Run a closure. -/
def callClosure (function : Closure τ σ ε R) (env : Env τ σ) : Except ε R × Env τ σ :=
  let r := function (env.world, env.shared)
  (r.1, { env with world := r.2.1, shared := r.2.2 })

/-- `ErrorClusterPtr::wrap_function`. -/
def wrapFunction (E : ToLvError ε) (return_on_error : R) (function : Closure τ σ ε R) :
    Exec (Env τ σ) LVInteropError R := do
  let cluster ← deref
  if cluster.isErr then
    pure return_on_error
  else do
    match ← Exec.call (callClosure function) with
    | .ok value => pure value
    | .error error => do
        let _ ← Exec.result (writeError memoryApi LV_ENCODING E error)
        pure return_on_error

/-- `ErrorClusterPtr::wrap_return_status`. -/
def wrapReturnStatus (E : ToLvError ε) (function : Closure τ σ ε Unit) :
    Exec (Env τ σ) LVInteropError LVStatusCode := do
  let cluster ← deref
  if cluster.isErr then
    pure cluster.code
  else do
    wrapFunction memoryApi LV_ENCODING E () function
    let cluster ← deref
    pure cluster.code

end ErrorClusterPtr

/-! ## writing an error -/

section WriteError

variable (memoryApi : Result (MemoryApi τ)) (LV_ENCODING : Encoding)

theorem ErrorClusterPtr.deref_run {env : Env τ σ} {cluster : ErrorCluster}
    (h : env.cluster = some cluster) : deref env = (.ok cluster, env) :=
  Exec.unwrapRead_of_ok (by rw [h])

/-- The memory after the source text of what a closure returned was written, or
could not be. -/
def ErrorCluster.textWorld (E : ToLvError ε) (self : ErrorCluster) (w : World τ) :
    Except ε R → World τ
  | .ok _ => w
  | .error error =>
      (ErrorClusterPtr.writeError memoryApi LV_ENCODING E error
        (⟨some self, w, ()⟩ : Env τ Unit)).2.world

/-- `write_error` sets status and code, and keeps the handle of the source
text, whatever becomes of the text. -/
theorem ErrorClusterPtr.writeError_run (E : ToLvError ε) (error : ε) {env : Env τ σ}
    {cluster : ErrorCluster} (h : env.cluster = some cluster) :
    (writeError memoryApi LV_ENCODING E error env).2 =
      ⟨some ⟨.ofBool (E.isError error), E.code error, cluster.source⟩,
        cluster.textWorld memoryApi LV_ENCODING E env.world (.error error : Except ε Unit),
        env.shared⟩ := by
  unfold ErrorCluster.textWorld writeError
  rw [h]
  dsimp only
  cases hE : E.isError error with
  | true => rfl
  | false => rfl

theorem ErrorClusterPtr.noPanic_writeError (E : ToLvError ε) (error : ε) :
    (writeError memoryApi LV_ENCODING E error : Exec (Env τ σ) LVInteropError Unit).NoPanic := by
  intro env
  unfold writeError
  cases env.cluster with
  | none => exact nofun
  | some cluster =>
      cases hE : E.isError error with
      | true => exact LStrHandle.noPanic_set memoryApi _ _ _
      | false => exact LStrHandle.noPanic_set memoryApi _ _ _

end WriteError

end LvInterop
