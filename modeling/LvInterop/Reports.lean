import LvInterop.FirstError
import LvInterop.Lib.Run
import LvInterop.Refine

/-!
# LvInterop.Reports

What LabVIEW reads in an error cluster after a chain of wrapped calls: the
status, the code, and the source text in the memory of its string.

To LabVIEW a chain is a fold (`Wire.next`): as long as the wire carries no
error, what a closure reports replaces what it carries.  The text is replaced
if the manager lets it be written, and otherwise stays (`chain_told`).
-/

namespace LvInterop

open Lib

variable {τ σ ε R : Type} {width : PtrWidth} {inv : World τ → Prop}

/-! ## the wire -/

/-- The text of a string, if the manager knows its handle. -/
def World.text (w : World τ) (h : UHandle) : Option (List UInt8) :=
  (w.block h).map fun _ => LStr.value w h

/-- What an error wire carries. -/
structure Wire where
  status : Bool
  code : LVStatusCode
  text : Option (List UInt8)
deriving DecidableEq

/-- What a closure reports, and whether its text could be written. -/
structure Report where
  isError : Bool
  code : LVStatusCode
  text : List UInt8
  written : Bool
deriving DecidableEq

/-- The wire behind a call; `none` is a closure that returned `Ok`. -/
def Wire.next (wire : Wire) : Option Report → Wire
  | none => wire
  | some r =>
      if wire.status then wire
      else ⟨r.isError, r.code, if r.written then some r.text else wire.text⟩

/-- An error on the wire passes every call. -/
theorem Wire.foldl_of_error {wire : Wire} (h : wire.status = true) (reports : List (Option Report)) :
    reports.foldl next wire = wire := by
  induction reports with
  | nil => rfl
  | cons r reports ih =>
      have hnext : wire.next r = wire := by
        cases r with
        | none => rfl
        | some r => rw [next, if_pos h]
      rw [List.foldl_cons, hnext, ih]

/-- So the first error is what comes out. -/
theorem Wire.foldl_of_first {wire : Wire} (h : wire.status = false) {before : List (Option Report)}
    (hbefore : ∀ r, some r ∈ before → r.isError = false) {r : Report} (hr : r.isError = true)
    (hw : r.written = true) (behind : List (Option Report)) :
    (before ++ some r :: behind).foldl next wire = ⟨true, r.code, some r.text⟩ := by
  induction before generalizing wire with
  | nil =>
      have hnext : wire.next (some r) = ⟨true, r.code, some r.text⟩ := by
        rw [next, h, hr, hw, if_pos rfl, if_neg Bool.false_ne_true]
      rw [List.nil_append, List.foldl_cons, hnext]
      exact foldl_of_error rfl behind
  | cons b before ih =>
      have hstatus : (wire.next b).status = false := by
        cases b with
        | none => exact h
        | some b =>
            rw [next, h, if_neg Bool.false_ne_true]
            exact hbefore b List.mem_cons_self
      rw [List.cons_append, List.foldl_cons]
      exact ih hstatus fun r hmem => hbefore r (List.mem_cons_of_mem _ hmem)

/-- What LabVIEW finds in a cluster. -/
def ErrorCluster.wire (self : ErrorCluster) (w : World τ) : Wire :=
  ⟨self.isErr, self.code, w.text self.source⟩

/-! ## what closures report -/

section Chain

variable (memoryApi : Result (MemoryApi τ)) (LV_ENCODING : Encoding)

/-- The bytes of the text of an error. -/
def ToLvError.text (E : ToLvError ε) (self : ε) : List UInt8 :=
  LV_ENCODING.encode (formatErrorSource (E.source self) (E.description self))

/-- What the result of a closure reports to a cluster with the string `source`. -/
def ToLvError.report (E : ToLvError ε) (source : UHandle) (w : World τ) :
    Except ε R → Option Report
  | .ok _ => none
  | .error e => some
      ⟨E.isError e, E.code e, E.text LV_ENCODING e,
        decide ((LStrHandle.set memoryApi source (E.text LV_ENCODING e) w).1 = .ok ())⟩

namespace Call

/-- The memory after the closure of a call. -/
def after (env : Env τ σ) : Call τ σ → World τ
  | wrapFunction _ _ function => (function (env.world, env.shared)).2.1
  | wrapReturnStatus _ function => (function (env.world, env.shared)).2.1

/-- What the closure reports. -/
def report (source : UHandle) (env : Env τ σ) : Call τ σ → Option Report
  | wrapFunction E _ function => E.report memoryApi LV_ENCODING source
      (function (env.world, env.shared)).2.1 (function (env.world, env.shared)).1
  | wrapReturnStatus E function => E.report memoryApi LV_ENCODING source
      (function (env.world, env.shared)).2.1 (function (env.world, env.shared)).1

/-- The closure keeps the manager's invariant and the source text, and a text
that can be written is written to its end. -/
structure Reports (inv : World τ → Prop) (source : UHandle) (c : Call τ σ) (env : Env τ σ) :
    Prop where
  inv : inv env.world → inv (c.after env)
  block : (c.after env).block source = env.world.block source
  delivers : ∀ api r, memoryApi = .ok api → c.report memoryApi LV_ENCODING source env = some r →
    r.written = true → LStrHandle.Delivers api source r.text (c.after env)

end Call

/-- What the closures of a chain report, each on the state its call finds. -/
def told (source : UHandle) : List (Call τ σ) → Env τ σ → List (Option Report)
  | [], _ => []
  | c :: calls, env => c.report memoryApi LV_ENCODING source env ::
      told source calls (c.step memoryApi LV_ENCODING env)

/-- So do the closures of a chain that run. -/
def AllReport (inv : World τ → Prop) (source : UHandle) : List (Call τ σ) → Env τ σ → Prop
  | [], _ => True
  | c :: calls, env =>
      ((∀ cluster, env.cluster = some cluster → cluster.isErr = false) →
        c.Reports memoryApi LV_ENCODING inv source env) ∧
      AllReport inv source calls (c.step memoryApi LV_ENCODING env)

/-! ## one call -/

/-- A string the manager knows lies in its block. -/
def World.Textual (w : World τ) (h : UHandle) : Prop := w.Live h → LStr.Stored w h

/-- A text is found in each copy of its block. -/
theorem World.Textual.of_block {w w' : World τ} {h : UHandle} (ht : w.Textual h)
    (hb : w'.block h = w.block h) : w'.Textual h ∧ w'.text h = w.text h := by
  by_cases hl : w.Live h
  · obtain ⟨hstored, hvalue⟩ := (ht hl).of_block hb
    exact ⟨fun _ => hstored, by rw [text, text, hb, hvalue]⟩
  · have hnone : w.block h = none := by rw [block, not_not.mp hl, Option.map_none]
    have hlive : ¬ w'.Live h := by
      intro hl'
      obtain ⟨n, hn⟩ := Option.ne_none_iff_exists'.mp hl'
      rw [hnone, block, hn] at hb
      exact absurd hb (Option.some_ne_none _)
    exact ⟨fun hl' => absurd hl' hlive, by
      rw [text, text, hb, hnone, Option.map_none, Option.map_none]⟩

variable {memoryApi}

/-- `set` replaces the text of a string, or leaves it as it is. -/
theorem LStrHandle.set_text (hapi : ∀ api, memoryApi = .ok api → api.Lawful width inv)
    {h : UHandle} {v : List UInt8} {w : World τ} (hinv : inv w) (ht : w.Textual h)
    (hd : ∀ api, memoryApi = .ok api → (set memoryApi h v w).1 = .ok () →
      LStrHandle.Delivers api h v w) :
    inv (set memoryApi h v w).2 ∧ (set memoryApi h v w).2.Textual h ∧
      (set memoryApi h v w).2.text h =
        if (set memoryApi h v w).1 = .ok () then some v else w.text h := by
  cases memoryApi with
  | error e => exact ⟨hinv, ht, rfl⟩
  | ok api =>
      obtain ⟨st, w', -, hinv', ⟨-, hsame, e, hrun⟩ | ⟨-, -, hg, -, hrun⟩⟩ :=
        set_cases (hapi api rfl) h v hinv
      · obtain ⟨ht', htext⟩ := ht.of_block (hsame h).block
        rw [hrun]
        exact ⟨hinv', ht', htext⟩
      · obtain ⟨hstored, hvalue⟩ := set_ok (hapi api rfl) hinv hrun
        have hdel := hd api rfl (by rw [hrun])
        obtain ⟨n, hn, -⟩ := id hstored
        rw [hrun, if_pos rfl]
        refine ⟨fill_inv (hapi api rfl) hinv', fun _ => hstored, ?_⟩
        rw [World.text, World.block, hn, hvalue hdel]
        rfl

variable (memoryApi)

namespace ErrorCluster

/-- Writing an error writes its text. -/
theorem textWorld_error (self : ErrorCluster) (E : ToLvError ε) (w : World τ) (e : ε) :
    self.textWorld memoryApi LV_ENCODING E w (.error e : Except ε R) =
      (LStrHandle.set memoryApi self.source (E.text LV_ENCODING e) w).2 := by
  unfold textWorld ErrorClusterPtr.writeError
  dsimp only
  cases hE : E.isError e with
  | true => rfl
  | false => rfl

variable {memoryApi}

/-- What is recorded of a result is what the wire carries next. -/
theorem wire_record (hapi : ∀ api, memoryApi = .ok api → api.Lawful width inv)
    {self : ErrorCluster} (he : self.isErr = false) {E : ToLvError ε} {w : World τ} (hinv : inv w)
    (ht : w.Textual self.source) {r : Except ε R}
    (hd : ∀ api p, memoryApi = .ok api → E.report memoryApi LV_ENCODING self.source w r = some p →
      p.written = true → LStrHandle.Delivers api self.source p.text w) :
    inv (self.textWorld memoryApi LV_ENCODING E w r) ∧
      (self.textWorld memoryApi LV_ENCODING E w r).Textual self.source ∧
      (self.record (.ofResult E r)).wire (self.textWorld memoryApi LV_ENCODING E w r) =
        (self.wire w).next (E.report memoryApi LV_ENCODING self.source w r) := by
  cases r with
  | ok v => exact ⟨hinv, ht, rfl⟩
  | error e =>
      obtain ⟨hinv', ht', htext⟩ := LStrHandle.set_text hapi hinv ht fun api ha hok =>
        hd api _ ha rfl (decide_eq_true hok)
      rw [textWorld_error]
      refine ⟨hinv', ht', ?_⟩
      have hstatus : (self.wire w).status = false := he
      rw [ToLvError.report, Wire.next, hstatus, if_neg Bool.false_ne_true]
      simp only [decide_eq_true_eq]
      cases hE : E.isError e with
      | true => simp [Returned.ofResult, hE, record, wire, isErr, LV_TRUE, LVBool.toBool, htext]
      | false => simp [Returned.ofResult, hE, record, wire, isErr, LV_FALSE, LVBool.toBool, htext]

end ErrorCluster

/-! ## a chain of calls -/

/-- What LabVIEW finds behind the pointer. -/
def Env.wire (env : Env τ σ) : Option Wire := env.cluster.map fun cluster => cluster.wire env.world

variable {memoryApi}

/-- A call takes the wire one step further, and keeps the handle of its text. -/
theorem Call.wire_step (hapi : ∀ api, memoryApi = .ok api → api.Lawful width inv) (c : Call τ σ)
    {env : Env τ σ} {cluster : ErrorCluster} (h : env.cluster = some cluster)
    (he : cluster.isErr = false) (hinv : inv env.world) (ht : env.world.Textual cluster.source)
    (hc : c.Reports memoryApi LV_ENCODING inv cluster.source env) :
    ∃ cluster', (c.step memoryApi LV_ENCODING env).cluster = some cluster' ∧
      cluster'.source = cluster.source ∧ inv (c.step memoryApi LV_ENCODING env).world ∧
      (c.step memoryApi LV_ENCODING env).world.Textual cluster.source ∧
      cluster'.wire (c.step memoryApi LV_ENCODING env).world =
        (cluster.wire env.world).next (c.report memoryApi LV_ENCODING cluster.source env) := by
  obtain ⟨ht', htext⟩ := ht.of_block hc.block
  have hwire : cluster.wire (c.after env) = cluster.wire env.world := by
    rw [ErrorCluster.wire, ErrorCluster.wire, htext]
  have hsource : (cluster.record (c.returned env)).source = cluster.source := by
    cases c.returned env <;> rfl
  rw [c.step_of_not_isErr memoryApi LV_ENCODING h he, ← hwire]
  cases c with
  | wrapFunction E r f =>
      exact ⟨_, rfl, hsource,
        ErrorCluster.wire_record LV_ENCODING hapi he (hc.inv hinv) ht' hc.delivers⟩
  | wrapReturnStatus E f =>
      exact ⟨_, rfl, hsource,
        ErrorCluster.wire_record LV_ENCODING hapi he (hc.inv hinv) ht' hc.delivers⟩

/-- What LabVIEW finds after a chain is the fold of what the closures report. -/
theorem wire_runAll (hapi : ∀ api, memoryApi = .ok api → api.Lawful width inv)
    (calls : List (Call τ σ)) {env : Env τ σ} {cluster : ErrorCluster}
    (h : env.cluster = some cluster) (hinv : inv env.world)
    (ht : env.world.Textual cluster.source)
    (hcalls : AllReport memoryApi LV_ENCODING inv cluster.source calls env) :
    (runAll memoryApi LV_ENCODING calls env).wire =
      some ((told memoryApi LV_ENCODING cluster.source calls env).foldl Wire.next
        (cluster.wire env.world)) := by
  induction calls generalizing env cluster with
  | nil => rw [runAll_nil, Env.wire, h]; rfl
  | cons c calls ih =>
      cases he : cluster.isErr with
      | true =>
          rw [runAll_of_isErr memoryApi LV_ENCODING _ h he, Wire.foldl_of_error he, Env.wire, h]
          rfl
      | false =>
          obtain ⟨hc, hcalls⟩ := hcalls
          have hclear : ∀ k, env.cluster = some k → k.isErr = false := by
            intro k hk
            rw [h] at hk
            rw [← Option.some.inj hk, he]
          obtain ⟨cluster', h', hs, hinv', ht', hwire⟩ :=
            c.wire_step LV_ENCODING hapi h he hinv ht (hc hclear)
          rw [← hs] at hcalls ht'
          rw [runAll_cons, ih h' hinv' ht' hcalls, told, List.foldl_cons, ← hwire, hs]

/-- **LabVIEW reads what the closures report**: after a chain the cluster
carries the fold of the reports; where a closure returns an error and its text
can be written, that is the status, the code and the text of the first one.
The closures keep to `Call.Reports`: the manager's invariant holds, the source
string is left alone, and each text that can be written gets into it. -/
theorem chain_told (hapi : ∀ api, memoryApi = .ok api → api.Lawful width inv)
    (calls : List (Call τ σ)) {env : Env τ σ} {cluster : ErrorCluster}
    (h : env.cluster = some cluster) (hinv : inv env.world)
    (ht : env.world.Textual cluster.source)
    (hcalls : AllReport memoryApi LV_ENCODING inv cluster.source calls env) :
    (runAll memoryApi LV_ENCODING calls env).wire =
      some ((told memoryApi LV_ENCODING cluster.source calls env).foldl Wire.next
        (cluster.wire env.world)) ∧
    ∀ before r behind, told memoryApi LV_ENCODING cluster.source calls env =
        before ++ some r :: behind → (∀ p, some p ∈ before → p.isError = false) →
      r.isError = true → r.written = true → cluster.isErr = false →
      (runAll memoryApi LV_ENCODING calls env).wire = some ⟨true, r.code, some r.text⟩ := by
  have hwire := wire_runAll LV_ENCODING hapi calls h hinv ht hcalls
  refine ⟨hwire, fun before r behind htold hbefore hr hw he => ?_⟩
  rw [hwire, htold, Wire.foldl_of_first he hbefore hr hw]

end Chain

/-- The chain of a warning and an error leaves the text of the error. -/
theorem chain_told_threeCalls :
    (runAll (.ok (Bump.api .w64)) windows1252Encoding threeCalls noErrorEnv).wire =
      some ⟨true, ⟨7⟩, some (windows1252Encoding.encode "<ERR>\n")⟩ := by
  have hcalls : AllReport (.ok (Bump.api .w64)) windows1252Encoding Bump.Inv ⟨1⟩ threeCalls
      noErrorEnv := by
    refine ⟨fun _ => ⟨id, rfl, fun api r ha hr _ => ?_⟩, fun _ => ⟨id, rfl, fun api r ha hr _ => ?_⟩,
      fun h => absurd (h _ rfl) (by decide), trivial⟩
    · cases ha
      obtain rfl := Option.some.inj hr
      exact ⟨by decide, by decide⟩
    · cases ha
      obtain rfl := Option.some.inj hr
      exact ⟨by decide, by decide⟩
  have hapi : ∀ api, (.ok (Bump.api .w64) : Result (MemoryApi Bump)) = .ok api →
      api.Lawful .w64 Bump.Inv := by
    intro api ha
    cases ha
    exact Bump.lawful .w64
  refine (chain_told windows1252Encoding hapi threeCalls rfl (Bump.withString_usable 9).inv
    (fun _ => Bump.withString_stored 9) hcalls).2 [_] _ [_] rfl (fun p hp => ?_) rfl rfl rfl
  rw [Option.some.inj (List.mem_singleton.mp hp)]
  rfl

end LvInterop
