import LvInterop.ErrorCluster
import LvInterop.Windows1252
import Mathlib.Data.List.Basic

/-!
# LvInterop.FirstError

Chains of wrapped calls on one error cluster: the first error wins.

A call does one of two things.  Under a cluster in error it does nothing at
all (`Call.step_of_isErr`); otherwise it runs its closure and records what the
closure returned (`Call.step_of_not_isErr`), whether or not LabVIEW lets it
write the source text.  A chain is an induction over these two.
-/

namespace LvInterop

open Lib

variable {τ σ ε R : Type}

/-! ## one call -/

/-- A closure with the wrapper it is run through. -/
inductive Call (τ σ : Type) : Type 1 where
  | wrapFunction {ε R : Type} (E : ToLvError ε) (return_on_error : R) (function : Closure τ σ ε R)
  | wrapReturnStatus {ε : Type} (E : ToLvError ε) (function : Closure τ σ ε Unit)

/-- What a closure returned, as far as the cluster is concerned. -/
inductive Returned where
  | ok
  | warning (code : LVStatusCode)
  | error (code : LVStatusCode)
deriving DecidableEq, Repr

/-- An `Err` with `is_error()`. -/
def Returned.isError : Returned → Bool
  | .error _ => true
  | _ => false

/-- Read a closure's `Result` through `ToLvError`. -/
def Returned.ofResult (E : ToLvError ε) : Except ε R → Returned
  | .ok _ => .ok
  | .error e => if E.isError e then .error (E.code e) else .warning (E.code e)

/-- The cluster after what a closure returned was recorded. -/
def ErrorCluster.record (self : ErrorCluster) : Returned → ErrorCluster
  | .ok => self
  | .warning code => ⟨LV_FALSE, code, self.source⟩
  | .error code => ⟨LV_TRUE, code, self.source⟩

section Chain

variable (memoryApi : Result (MemoryApi τ)) (LV_ENCODING : Encoding)

namespace Call

/-- What the closure returns when it is run on `env`. -/
def returned (env : Env τ σ) : Call τ σ → Returned
  | wrapFunction E _ function => .ofResult E (function (env.world, env.shared)).1
  | wrapReturnStatus E function => .ofResult E (function (env.world, env.shared)).1

/-- The memory after the closure, and the source text of what it returned. -/
def leaves (cluster : ErrorCluster) (env : Env τ σ) : Call τ σ → World τ
  | wrapFunction E _ function =>
      cluster.textWorld memoryApi LV_ENCODING E (function (env.world, env.shared)).2.1
        (function (env.world, env.shared)).1
  | wrapReturnStatus E function =>
      cluster.textWorld memoryApi LV_ENCODING E (function (env.world, env.shared)).2.1
        (function (env.world, env.shared)).1

/-- What the closure makes of the state that closures share. -/
def shares (env : Env τ σ) : Call τ σ → σ
  | wrapFunction _ _ function => (function (env.world, env.shared)).2.2
  | wrapReturnStatus _ function => (function (env.world, env.shared)).2.2

/-- The state after the call. -/
def step (env : Env τ σ) : Call τ σ → Env τ σ
  | wrapFunction E return_on_error function =>
      (ErrorClusterPtr.wrapFunction memoryApi LV_ENCODING E return_on_error function env).2
  | wrapReturnStatus E function =>
      (ErrorClusterPtr.wrapReturnStatus memoryApi LV_ENCODING E function env).2

/-- The value of the call: `wrap_function` gives the closure's value or
`return_on_error`, `wrap_return_status` the code the cluster is left with. -/
def ValueOk (env : Env τ σ) (cluster : ErrorCluster) : Call τ σ → Prop
  | wrapFunction E return_on_error function =>
      (ErrorClusterPtr.wrapFunction memoryApi LV_ENCODING E return_on_error function env).1 = .ok
        (if cluster.isErr then return_on_error
          else match (function (env.world, env.shared)).1 with
            | .ok value => value
            | .error _ => return_on_error)
  | wrapReturnStatus E function =>
      ∃ cluster', (ErrorClusterPtr.wrapReturnStatus memoryApi LV_ENCODING E function env).2.cluster =
          some cluster' ∧
        (ErrorClusterPtr.wrapReturnStatus memoryApi LV_ENCODING E function env).1 = .ok cluster'.code

end Call

namespace ErrorClusterPtr

theorem wrapFunction_of_isErr {E : ToLvError ε} {return_on_error : R} {function : Closure τ σ ε R}
    {env : Env τ σ} {cluster : ErrorCluster} (h : env.cluster = some cluster)
    (he : cluster.isErr = true) :
    wrapFunction memoryApi LV_ENCODING E return_on_error function env =
      (.ok return_on_error, env) := by
  rw [wrapFunction, Exec.bind_of_ok (deref_run h), if_pos he, Exec.pure_run]

theorem wrapReturnStatus_of_isErr {E : ToLvError ε} {function : Closure τ σ ε Unit} {env : Env τ σ}
    {cluster : ErrorCluster} (h : env.cluster = some cluster) (he : cluster.isErr = true) :
    wrapReturnStatus memoryApi LV_ENCODING E function env = (.ok cluster.code, env) := by
  rw [wrapReturnStatus, Exec.bind_of_ok (deref_run h), if_pos he, Exec.pure_run]

/-- Without an incoming error the closure runs and its result is recorded. -/
theorem wrapFunction_of_not_isErr (E : ToLvError ε) (return_on_error : R)
    (function : Closure τ σ ε R) {env : Env τ σ} {cluster : ErrorCluster}
    (h : env.cluster = some cluster) (he : cluster.isErr = false) :
    wrapFunction memoryApi LV_ENCODING E return_on_error function env =
      (.ok (match (function (env.world, env.shared)).1 with
          | .ok value => value
          | .error _ => return_on_error),
        ⟨some (cluster.record (.ofResult E (function (env.world, env.shared)).1)),
          cluster.textWorld memoryApi LV_ENCODING E (function (env.world, env.shared)).2.1
            (function (env.world, env.shared)).1,
          (function (env.world, env.shared)).2.2⟩) := by
  rcases hf : function (env.world, env.shared) with ⟨r, w₁, s₁⟩
  have hcall : callClosure function env = (r, { env with world := w₁, shared := s₁ }) := by
    rw [callClosure, hf]
  rw [wrapFunction, Exec.bind_of_ok (deref_run h), he, if_neg Bool.false_ne_true,
    Exec.call_bind_run, hcall]
  cases r with
  | ok value =>
      dsimp only
      rw [Exec.pure_run, h]
      rfl
  | error error =>
      have h₁ : ({ env with world := w₁, shared := s₁ } : Env τ σ).cluster = some cluster := h
      have hw := writeError_run memoryApi LV_ENCODING E error h₁
      obtain ⟨res, hres⟩ := Exec.result_of_noPanic
        (noPanic_writeError memoryApi LV_ENCODING E error) { env with world := w₁, shared := s₁ }
      dsimp only
      rw [Exec.bind_of_ok hres, Exec.pure_run, hw]
      cases hE : E.isError error with
      | true => simp [ErrorCluster.record, Returned.ofResult, hE, LVBool.ofBool, ErrorCluster.textWorld]
      | false => simp [ErrorCluster.record, Returned.ofResult, hE, LVBool.ofBool, ErrorCluster.textWorld]

/-- The same for `wrap_return_status`, which returns the code it leaves. -/
theorem wrapReturnStatus_of_not_isErr (E : ToLvError ε) (function : Closure τ σ ε Unit)
    {env : Env τ σ} {cluster : ErrorCluster} (h : env.cluster = some cluster)
    (he : cluster.isErr = false) :
    wrapReturnStatus memoryApi LV_ENCODING E function env =
      (.ok (cluster.record (.ofResult E (function (env.world, env.shared)).1)).code,
        ⟨some (cluster.record (.ofResult E (function (env.world, env.shared)).1)),
          cluster.textWorld memoryApi LV_ENCODING E (function (env.world, env.shared)).2.1
            (function (env.world, env.shared)).1,
          (function (env.world, env.shared)).2.2⟩) := by
  have hw := wrapFunction_of_not_isErr memoryApi LV_ENCODING E () function h he
  rw [wrapReturnStatus, Exec.bind_of_ok (deref_run h), he, if_neg Bool.false_ne_true,
    Exec.bind_of_ok hw, Exec.bind_of_ok (deref_run rfl), Exec.pure_run]

end ErrorClusterPtr

namespace Call

/-- **Under a cluster in error a call does nothing.** -/
theorem step_of_isErr (c : Call τ σ) {env : Env τ σ} {cluster : ErrorCluster}
    (h : env.cluster = some cluster) (he : cluster.isErr = true) :
    c.step memoryApi LV_ENCODING env = env := by
  cases c with
  | wrapFunction E r f => rw [step, ErrorClusterPtr.wrapFunction_of_isErr _ _ h he]
  | wrapReturnStatus E f => rw [step, ErrorClusterPtr.wrapReturnStatus_of_isErr _ _ h he]

/-- **Otherwise it runs the closure and records what it returned.** -/
theorem step_of_not_isErr (c : Call τ σ) {env : Env τ σ} {cluster : ErrorCluster}
    (h : env.cluster = some cluster) (he : cluster.isErr = false) :
    c.step memoryApi LV_ENCODING env = ⟨some (cluster.record (c.returned env)),
      c.leaves memoryApi LV_ENCODING cluster env, c.shares env⟩ := by
  cases c with
  | wrapFunction E r f =>
      rw [step, ErrorClusterPtr.wrapFunction_of_not_isErr memoryApi LV_ENCODING E r f h he]
      rfl
  | wrapReturnStatus E f =>
      rw [step, ErrorClusterPtr.wrapReturnStatus_of_not_isErr memoryApi LV_ENCODING E f h he]
      rfl

theorem valueOk (c : Call τ σ) {env : Env τ σ} {cluster : ErrorCluster}
    (h : env.cluster = some cluster) : c.ValueOk memoryApi LV_ENCODING env cluster := by
  cases he : cluster.isErr with
  | true =>
      cases c with
      | wrapFunction E r f => simp [ValueOk, ErrorClusterPtr.wrapFunction_of_isErr _ _ h he, he]
      | wrapReturnStatus E f =>
          rw [ValueOk, ErrorClusterPtr.wrapReturnStatus_of_isErr _ _ h he]
          exact ⟨cluster, h, rfl⟩
  | false =>
      cases c with
      | wrapFunction E r f =>
          rw [ValueOk, ErrorClusterPtr.wrapFunction_of_not_isErr memoryApi LV_ENCODING E r f h he,
            he]
          rfl
      | wrapReturnStatus E f =>
          rw [ValueOk, ErrorClusterPtr.wrapReturnStatus_of_not_isErr memoryApi LV_ENCODING E f h he]
          exact ⟨_, rfl, rfl⟩

end Call

/-! ## a chain of calls -/

/-- The state after all calls. -/
def runAll (calls : List (Call τ σ)) (env : Env τ σ) : Env τ σ :=
  calls.foldl (fun env c => c.step memoryApi LV_ENCODING env) env

/-- What each closure returns on the state its call finds. -/
def returns : List (Call τ σ) → Env τ σ → List Returned
  | [], _ => []
  | c :: calls, env => c.returned env :: returns calls (c.step memoryApi LV_ENCODING env)

/-- A closure that also puts `i` on a list of those that ran. -/
def Closure.logged (i : Nat) (function : Closure τ σ ε R) : Closure τ (σ × List Nat) ε R :=
  fun (w, s, log) =>
    let r := function (w, s)
    (r.1, r.2.1, r.2.2, log ++ [i])

/-- The same call with a logged closure. -/
def Call.logged (i : Nat) : Call τ σ → Call τ (σ × List Nat)
  | wrapFunction E return_on_error function =>
      wrapFunction E return_on_error (Closure.logged i function)
  | wrapReturnStatus E function => wrapReturnStatus E (Closure.logged i function)

/-- The calls, each logging its position. -/
def logAll : Nat → List (Call τ σ) → List (Call τ (σ × List Nat))
  | _, [] => []
  | i, c :: calls => c.logged i :: logAll (i + 1) calls

/-- The positions of the closures that ran, in the order they did. -/
def executed (calls : List (Call τ σ)) (env : Env τ σ) : List Nat :=
  (runAll memoryApi LV_ENCODING (logAll 0 calls) ⟨env.cluster, env.world, env.shared, []⟩).shared.2

/-- The code of the last warning. -/
def lastWarning (rs : List Returned) : Option LVStatusCode :=
  (rs.filterMap fun
    | .warning code => some code
    | _ => none).getLast?

@[simp] theorem runAll_nil (env : Env τ σ) : runAll memoryApi LV_ENCODING [] env = env := rfl

@[simp] theorem runAll_cons (c : Call τ σ) (calls : List (Call τ σ)) (env : Env τ σ) :
    runAll memoryApi LV_ENCODING (c :: calls) env =
      runAll memoryApi LV_ENCODING calls (c.step memoryApi LV_ENCODING env) := rfl

@[simp] theorem length_returns (calls : List (Call τ σ)) (env : Env τ σ) :
    (returns memoryApi LV_ENCODING calls env).length = calls.length := by
  induction calls generalizing env with
  | nil => rfl
  | cons c calls ih => rw [returns, List.length_cons, List.length_cons, ih]

/-- Under a cluster in error a whole chain does nothing. -/
theorem runAll_of_isErr (calls : List (Call τ σ)) {env : Env τ σ} {cluster : ErrorCluster}
    (h : env.cluster = some cluster) (he : cluster.isErr = true) :
    runAll memoryApi LV_ENCODING calls env = env := by
  induction calls with
  | nil => rfl
  | cons c calls ih => rw [runAll_cons, c.step_of_isErr _ _ h he, ih]

/-- The cluster after the results of a chain that met no error. -/
theorem isErr_record {cluster : ErrorCluster} (he : cluster.isErr = false) (r : Returned) :
    (cluster.record r).isErr = r.isError := by
  cases r with
  | ok => exact he
  | warning code => rfl
  | error code => rfl

/-- A logged call does what the call does, and logs whether its closure ran. -/
theorem Call.logged_step (c : Call τ σ) (i : Nat) {env : Env τ σ} {cluster : ErrorCluster}
    (h : env.cluster = some cluster) (log : List Nat) :
    (c.logged i).step memoryApi LV_ENCODING ⟨env.cluster, env.world, env.shared, log⟩ =
      ⟨(c.step memoryApi LV_ENCODING env).cluster, (c.step memoryApi LV_ENCODING env).world,
        (c.step memoryApi LV_ENCODING env).shared,
        if cluster.isErr then log else log ++ [i]⟩ := by
  have h' : (⟨env.cluster, env.world, env.shared, log⟩ : Env τ (σ × List Nat)).cluster =
      some cluster := h
  cases he : cluster.isErr with
  | true => rw [step_of_isErr _ _ _ h he, step_of_isErr _ _ _ h' he, if_pos rfl]
  | false =>
      rw [step_of_not_isErr _ _ _ h he, step_of_not_isErr _ _ _ h' he,
        if_neg Bool.false_ne_true]
      cases c with
      | wrapFunction E r f => rfl
      | wrapReturnStatus E f => rfl

/-- The log of a chain: the positions up to the first error. -/
theorem runAll_logAll (calls : List (Call τ σ)) (i : Nat) {env : Env τ σ} {cluster : ErrorCluster}
    (h : env.cluster = some cluster) (he : cluster.isErr = false) (log : List Nat) :
    (runAll memoryApi LV_ENCODING (logAll i calls)
        ⟨env.cluster, env.world, env.shared, log⟩).shared.2 =
      log ++ List.range' i (min calls.length
        ((returns memoryApi LV_ENCODING calls env).findIdx Returned.isError + 1)) := by
  induction calls generalizing i env cluster log with
  | nil => simp [logAll]
  | cons c calls ih =>
      have hstep := c.step_of_not_isErr memoryApi LV_ENCODING h he
      have hcl : (c.step memoryApi LV_ENCODING env).cluster =
          some (cluster.record (c.returned env)) := by rw [hstep]
      have herr := isErr_record he (c.returned env)
      rw [logAll, runAll_cons, c.logged_step _ _ i h, he, if_neg Bool.false_ne_true, returns,
        List.findIdx_cons]
      cases hr : (c.returned env).isError with
      | true =>
          have herr' : (cluster.record (c.returned env)).isErr = true := herr.trans hr
          have hlog : (⟨(c.step memoryApi LV_ENCODING env).cluster,
              (c.step memoryApi LV_ENCODING env).world, (c.step memoryApi LV_ENCODING env).shared,
              log ++ [i]⟩ : Env τ (σ × List Nat)).cluster = some (cluster.record (c.returned env)) :=
            hcl
          rw [runAll_of_isErr _ _ _ hlog herr']
          simp
      | false =>
          rw [ih (i + 1) hcl (herr.trans hr)]
          simp only [cond_false, List.length_cons]
          rw [Nat.add_min_add_right, List.range'_succ, List.append_assoc]
          rfl

theorem executed_eq_range (calls : List (Call τ σ)) {env : Env τ σ} {cluster : ErrorCluster}
    (h : env.cluster = some cluster) (he : cluster.isErr = false) :
    executed memoryApi LV_ENCODING calls env = List.range (min calls.length
      ((returns memoryApi LV_ENCODING calls env).findIdx Returned.isError + 1)) := by
  rw [executed, runAll_logAll memoryApi LV_ENCODING calls 0 h he, List.nil_append,
    List.range_eq_range']

theorem executed_of_isErr (calls : List (Call τ σ)) {env : Env τ σ} {cluster : ErrorCluster}
    (h : env.cluster = some cluster) (he : cluster.isErr = true) :
    executed memoryApi LV_ENCODING calls env = [] := by
  have h' : (⟨env.cluster, env.world, env.shared, []⟩ : Env τ (σ × List Nat)).cluster =
      some cluster := h
  rw [executed, runAll_of_isErr _ _ _ h' he]

/-- The chain up to its first error decides everything: what it leaves is what
the erroring call left. -/
theorem runAll_eq_take (calls : List (Call τ σ)) {env : Env τ σ} {cluster : ErrorCluster}
    (h : env.cluster = some cluster) (he : cluster.isErr = false) {k : Nat}
    (hk : (returns memoryApi LV_ENCODING calls env).findIdx Returned.isError < k) :
    runAll memoryApi LV_ENCODING calls env =
      runAll memoryApi LV_ENCODING (calls.take k) env := by
  induction calls generalizing env cluster k with
  | nil => rw [List.take_nil]
  | cons c calls ih =>
      obtain ⟨j, rfl⟩ : ∃ j, k = j + 1 := ⟨k - 1, by omega⟩
      have hstep := c.step_of_not_isErr memoryApi LV_ENCODING h he
      have hcl : (c.step memoryApi LV_ENCODING env).cluster =
          some (cluster.record (c.returned env)) := by rw [hstep]
      have herr := isErr_record he (c.returned env)
      rw [List.take_succ_cons, runAll_cons, runAll_cons]
      cases hr : (c.returned env).isError with
      | true => rw [runAll_of_isErr _ _ _ hcl (herr.trans hr), runAll_of_isErr _ _ _ hcl (herr.trans hr)]
      | false =>
          refine ih hcl (herr.trans hr) ?_
          rw [returns, List.findIdx_cons, hr, cond_false] at hk
          omega

/-- A chain that meets an error ends with that error in the cluster. -/
theorem cluster_runAll_of_error (calls : List (Call τ σ)) {env : Env τ σ} {cluster : ErrorCluster}
    (h : env.cluster = some cluster) (he : cluster.isErr = false) {code : LVStatusCode}
    (hf : (returns memoryApi LV_ENCODING calls env).find? Returned.isError = some (.error code)) :
    (runAll memoryApi LV_ENCODING calls env).cluster = some ⟨LV_TRUE, code, cluster.source⟩ := by
  induction calls generalizing env cluster with
  | nil => cases hf
  | cons c calls ih =>
      have hstep := c.step_of_not_isErr memoryApi LV_ENCODING h he
      have hcl : (c.step memoryApi LV_ENCODING env).cluster =
          some (cluster.record (c.returned env)) := by rw [hstep]
      have herr := isErr_record he (c.returned env)
      rw [returns] at hf
      rw [runAll_cons]
      cases hr : (c.returned env).isError with
      | true =>
          rw [List.find?_cons_of_pos hr, Option.some_inj] at hf
          rw [runAll_of_isErr _ _ _ hcl (herr.trans hr), hcl, hf]
          rfl
      | false =>
          rw [List.find?_cons_of_neg (by rw [hr]; exact Bool.false_ne_true)] at hf
          rw [ih hcl (herr.trans hr) hf]
          cases c.returned env <;> rfl

/-- A chain without errors leaves the status as it was and the code of the last
warning. -/
theorem cluster_runAll_of_no_error (calls : List (Call τ σ)) {env : Env τ σ}
    {cluster : ErrorCluster} (h : env.cluster = some cluster) (he : cluster.isErr = false)
    (hn : ∀ r ∈ returns memoryApi LV_ENCODING calls env, r.isError = false) :
    ∃ cluster', (runAll memoryApi LV_ENCODING calls env).cluster = some cluster' ∧
      cluster'.isErr = false ∧ cluster'.source = cluster.source ∧
      cluster'.code = (lastWarning (returns memoryApi LV_ENCODING calls env)).getD cluster.code := by
  induction calls generalizing env cluster with
  | nil => exact ⟨cluster, h, he, rfl, rfl⟩
  | cons c calls ih =>
      have hstep := c.step_of_not_isErr memoryApi LV_ENCODING h he
      have hcl : (c.step memoryApi LV_ENCODING env).cluster =
          some (cluster.record (c.returned env)) := by rw [hstep]
      rw [returns, List.forall_mem_cons] at hn
      have herr := (isErr_record he (c.returned env)).trans hn.1
      obtain ⟨cluster', hc', he', hs', hcode⟩ := ih hcl herr hn.2
      refine ⟨cluster', hc', he', hs'.trans ?_, hcode.trans ?_⟩
      · cases c.returned env <;> rfl
      · rw [returns, lastWarning, lastWarning]
        cases hr : c.returned env with
        | ok => rfl
        | warning code => simp [ErrorCluster.record, List.getLast?_cons]
        | error code => rw [hr] at hn; cases hn.1

/-- A cluster pointer that is not null stays so. -/
theorem exists_cluster_runAll (calls : List (Call τ σ)) {env : Env τ σ} {cluster : ErrorCluster}
    (h : env.cluster = some cluster) :
    ∃ cluster', (runAll memoryApi LV_ENCODING calls env).cluster = some cluster' := by
  induction calls generalizing env cluster with
  | nil => exact ⟨cluster, h⟩
  | cons c calls ih =>
      rw [runAll_cons]
      cases he : cluster.isErr with
      | true => exact ih ((c.step_of_isErr memoryApi LV_ENCODING h he).symm ▸ h)
      | false =>
          have hstep := c.step_of_not_isErr memoryApi LV_ENCODING h he
          exact ih (congrArg Env.cluster hstep)

/-- **The first error wins.**  Under a cluster that enters in error no closure
runs and nothing changes.  Otherwise the closures that run are those up to and
including the first that returns an error; from then on nothing changes, and
the cluster is in error with its code; and without an error the status stays
false and the code is that of the last warning.  Every call returns the value
its wrapper promises. -/
theorem firstErrorWins (calls : List (Call τ σ)) (env : Env τ σ) (cluster : ErrorCluster)
    (h : env.cluster = some cluster) :
    (cluster.isErr = true → executed memoryApi LV_ENCODING calls env = [] ∧
      ∀ k, runAll memoryApi LV_ENCODING (calls.take k) env = env) ∧
    (cluster.isErr = false →
      executed memoryApi LV_ENCODING calls env = List.range (min calls.length
        ((returns memoryApi LV_ENCODING calls env).findIdx Returned.isError + 1)) ∧
      (∀ code, (returns memoryApi LV_ENCODING calls env).find? Returned.isError =
          some (.error code) →
        ∀ k, (returns memoryApi LV_ENCODING calls env).findIdx Returned.isError < k →
          runAll memoryApi LV_ENCODING (calls.take k) env = runAll memoryApi LV_ENCODING calls env ∧
          (runAll memoryApi LV_ENCODING (calls.take k) env).cluster =
            some ⟨LV_TRUE, code, cluster.source⟩) ∧
      ((∀ r ∈ returns memoryApi LV_ENCODING calls env, r.isError = false) →
        executed memoryApi LV_ENCODING calls env = List.range calls.length ∧
        ∃ cluster', (runAll memoryApi LV_ENCODING calls env).cluster = some cluster' ∧
          cluster'.isErr = false ∧
          cluster'.code =
            (lastWarning (returns memoryApi LV_ENCODING calls env)).getD cluster.code)) ∧
    ∀ k c, calls[k]? = some c → ∃ cluster',
      (runAll memoryApi LV_ENCODING (calls.take k) env).cluster = some cluster' ∧
      c.ValueOk memoryApi LV_ENCODING (runAll memoryApi LV_ENCODING (calls.take k) env) cluster' := by
  refine ⟨fun he => ⟨?_, fun k => runAll_of_isErr _ _ _ h he⟩, fun he => ⟨?_, ?_, ?_⟩, ?_⟩
  · exact executed_of_isErr memoryApi LV_ENCODING calls h he
  · exact executed_eq_range memoryApi LV_ENCODING calls h he
  · intro code hf k hk
    have htake := runAll_eq_take memoryApi LV_ENCODING calls h he hk
    exact ⟨htake.symm, htake ▸ cluster_runAll_of_error memoryApi LV_ENCODING calls h he hf⟩
  · intro hn
    obtain ⟨cluster', hc', he', -, hcode⟩ :=
      cluster_runAll_of_no_error memoryApi LV_ENCODING calls h he hn
    refine ⟨?_, cluster', hc', he', hcode⟩
    have hidx := List.findIdx_eq_length_of_false hn
    rw [length_returns] at hidx
    rw [executed_eq_range memoryApi LV_ENCODING calls h he, hidx, Nat.min_eq_left (Nat.le_succ _)]
  · intro k c _
    obtain ⟨cluster', hc'⟩ := exists_cluster_runAll memoryApi LV_ENCODING (calls.take k) h
    exact ⟨cluster', hc', c.valueOk memoryApi LV_ENCODING hc'⟩

end Chain

/-- Errors that are a code: positive ones are errors, others warnings. -/
def codeError : ToLvError Int32 where
  code c := ⟨c⟩
  isError c := decide (0 < c)
  description _ := ""

/-- A warning, an error and a success. -/
def threeCalls : List (Call Bump Nat) :=
  [.wrapReturnStatus codeError fun s => (.error (-4), s.1, s.2 + 1),
    .wrapFunction codeError false fun s => (.error 7, s.1, s.2 + 1),
    .wrapFunction codeError 0 fun s => (.ok 1, s.1, s.2 + 1)]

/-- A cluster without an error, whose source is the string handle. -/
def noErrorEnv : Env Bump Nat :=
  ⟨some ⟨LV_FALSE, .SUCCESS, ⟨1⟩⟩, Bump.withString 9, 0⟩

theorem firstErrorWins_threeCalls :
    executed (.ok (Bump.api .w64)) windows1252Encoding threeCalls noErrorEnv = [0, 1] :=
  ((firstErrorWins (.ok (Bump.api .w64)) windows1252Encoding threeCalls noErrorEnv
    ⟨LV_FALSE, .SUCCESS, ⟨1⟩⟩ rfl).2.1 rfl).1.trans (by rfl)

end LvInterop
