import LvInterop.FirstError

/-!
# LvInterop.StatusReport

What LabVIEW is told (`errors.rs`, `types/lv_errors.rs`): a `Result` becomes a
status code, and `wrap_return_status` returns the code that it leaves in the
cluster.

Success is one value of the code, and every error of the crate has another one
of its own.  Only a status that was wrapped as it came can bring the value of
success along: `LVStatusCode::to_generic_result` looks for it before it wraps,
`From<LVStatusCode> for LVInteropError` does not.
-/

namespace LvInterop

open Lib

variable {τ σ α : Type}

/-- `From<LVStatusCode> for LVInteropError`. -/
def LVInteropError.ofStatus (status : LVStatusCode) : LVInteropError := .labviewError status

/-! ## codes of errors -/

/-- No discriminant is the code of success. -/
theorem LVStatusCode.ofMgError_ne_success (e : MgError) : ofMgError e ≠ .SUCCESS := by
  cases e <;> decide

theorem LVStatusCode.ofInternalError_ne_success (e : InternalError) :
    ofInternalError e ≠ .SUCCESS := by
  cases e <;> exact nofun

/-- One error has the code of success. -/
theorem LVStatusCode.ofError_eq_success_iff (e : LVInteropError) :
    ofError e = .SUCCESS ↔ e = .ofStatus .SUCCESS := by
  cases e with
  | labviewMgError e => exact iff_of_false (ofMgError_ne_success e) nofun
  | internalError e => exact iff_of_false (ofInternalError_ne_success e) nofun
  | labviewError status => simp [ofError, LVInteropError.ofStatus]

/-- What `to_generic_result` wraps is not success. -/
theorem LVStatusCode.toGenericResult_ne (s : LVStatusCode) (v : α) :
    s.toGenericResult v ≠ .error (.ofStatus .SUCCESS) := by
  unfold toGenericResult
  split_ifs with h
  · exact nofun
  · intro heq
    exact h (LVInteropError.labviewError.inj (Except.error.inj heq))

/-! ## what LabVIEW is told -/

/-- The status of `r` is success for `Ok` and for nothing else. -/
def LVStatusCode.Tells (r : Result α) : Prop := ofResult r = .SUCCESS ↔ r.isOk = true

/-- The status returned by `wrap_return_status` tells whether the closure
returned `Ok`, and the cluster says the same by its status and by its code. -/
def ErrorClusterPtr.Tells (memoryApi : Result (MemoryApi τ)) (LV_ENCODING : Encoding)
    (description : LVStatusCode → String) (env : Env τ σ)
    (function : Closure τ σ LVInteropError Unit) : Prop :=
  ∃ code cluster env',
    wrapReturnStatus memoryApi LV_ENCODING (LVInteropError.toLvError description) function env =
      (.ok code, env') ∧ env'.cluster = some cluster ∧
    (code = .SUCCESS ↔ (function (env.world, env.shared)).1.isOk = true) ∧
    (cluster.status.toBool = true ↔ cluster.code ≠ .SUCCESS)

theorem LVStatusCode.tells_iff_ne (r : Result α) : Tells r ↔ r ≠ .error (.ofStatus .SUCCESS) := by
  cases r with
  | ok v => exact iff_of_true (iff_of_true rfl rfl) nofun
  | error e =>
      have hcode : ofResult (.error e : Result α) = ofError e := rfl
      have hok : ¬ (Except.error e : Result α).isOk = true := nofun
      rw [Tells, hcode, ofError_eq_success_iff, iff_false_right hok, ne_eq, Except.error.injEq]

/-- On a cluster without an error `wrap_return_status` returns and records the
status of what the closure returned. -/
theorem ErrorClusterPtr.wrapReturnStatus_run (memoryApi : Result (MemoryApi τ))
    (LV_ENCODING : Encoding) (description : LVStatusCode → String) (source : UHandle)
    (world : World τ) (shared : σ) (function : Closure τ σ LVInteropError Unit) : ∃ world' shared',
      wrapReturnStatus memoryApi LV_ENCODING (LVInteropError.toLvError description) function
          ⟨some ⟨LV_FALSE, .SUCCESS, source⟩, world, shared⟩ =
        (.ok (.ofResult (function (world, shared)).1),
          ⟨some ⟨.ofBool (!(function (world, shared)).1.isOk),
            .ofResult (function (world, shared)).1, source⟩, world', shared'⟩) := by
  have hcluster : (⟨some ⟨LV_FALSE, .SUCCESS, source⟩, world, shared⟩ : Env τ σ).cluster =
      some ⟨LV_FALSE, .SUCCESS, source⟩ := rfl
  have hrun := wrapReturnStatus_of_not_isErr memoryApi LV_ENCODING
    (LVInteropError.toLvError description) function hcluster rfl
  dsimp only at hrun
  cases hf : (function (world, shared)).1 with
  | ok v =>
      rw [hf] at hrun
      exact ⟨_, _, hrun⟩
  | error e =>
      rw [hf] at hrun
      exact ⟨_, _, hrun⟩

/-- So the cluster tells what the status tells. -/
theorem ErrorClusterPtr.tells_iff_tells (memoryApi : Result (MemoryApi τ)) (LV_ENCODING : Encoding)
    (description : LVStatusCode → String) (source : UHandle) (world : World τ) (shared : σ)
    (function : Closure τ σ LVInteropError Unit) :
    Tells memoryApi LV_ENCODING description ⟨some ⟨LV_FALSE, .SUCCESS, source⟩, world, shared⟩
      function ↔ LVStatusCode.Tells (function (world, shared)).1 := by
  obtain ⟨world', shared', hrun⟩ := wrapReturnStatus_run memoryApi LV_ENCODING description source
    world shared function
  constructor
  · rintro ⟨code, cluster, env', hcode, -, htells, -⟩
    rw [hrun] at hcode
    cases hcode
    exact htells
  · intro h
    refine ⟨_, _, _, hrun, rfl, h, ?_⟩
    have hcode : LVStatusCode.ofResult (function (world, shared)).1 = .SUCCESS ↔
        (function (world, shared)).1.isOk = true := h
    rw [ne_eq, hcode]
    cases (function (world, shared)).1.isOk with
    | true => simp [LVBool.toBool, LVBool.ofBool, LV_FALSE]
    | false => simp [LVBool.toBool, LVBool.ofBool, LV_TRUE]

/-- **An error is told from success exactly** when it is not a wrapped success:
in the status of a `Result`, and in what `wrap_return_status` returns and
leaves in the cluster, whatever becomes of the source text. -/
theorem tells_iff (memoryApi : Result (MemoryApi τ)) (LV_ENCODING : Encoding)
    (description : LVStatusCode → String) :
    (∀ r : Result α, LVStatusCode.Tells r ↔ r ≠ .error (.ofStatus .SUCCESS)) ∧
    ∀ (source : UHandle) (world : World τ) (shared : σ)
      (function : Closure τ σ LVInteropError Unit),
      ErrorClusterPtr.Tells memoryApi LV_ENCODING description
          ⟨some ⟨LV_FALSE, .SUCCESS, source⟩, world, shared⟩ function ↔
        (function (world, shared)).1 ≠ .error (.ofStatus .SUCCESS) :=
  ⟨LVStatusCode.tells_iff_ne, fun source world shared function =>
    (ErrorClusterPtr.tells_iff_tells memoryApi LV_ENCODING description source world shared
      function).trans (LVStatusCode.tells_iff_ne _)⟩

/-- A wrapped success is an error that is told as success. -/
theorem not_tells : ¬ LVStatusCode.Tells (.error (.ofStatus .SUCCESS) : Result Unit) := by
  rw [LVStatusCode.tells_iff_ne]
  exact not_not.mpr rfl

end LvInterop
