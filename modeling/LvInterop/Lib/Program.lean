import LvInterop.Lib.Exec
import LvInterop.Lib.Run

/-!
# LvInterop.Lib.Program

Function bodies that reach a machine through calls only, as trees: what is
called next depends on what the calls so far have returned, and on nothing
else.  A body may end early with an error or a panic, and a value with a
destructor is dropped however its scope is left (`Body.scope`).

`Meets` is the weakest precondition of a tree: if every call it makes is made
in a state that meets the condition `C`, it ends as `Q` says.  Its rules take a
body apart along its syntax; `Meets.end_of_along` reads the result off a run.
-/

namespace Lib

variable {ι ρ ε α β σ : Type}

/-- Calls of inputs `ι` that return a `ρ`, and a result. -/
inductive Program (ι ρ α : Type) where
  | done (a : α)
  | call (i : ι) (next : ρ → Program ι ρ α)

namespace Program

/-- One program after the other. -/
def bind (f : α → Program ι ρ β) : Program ι ρ α → Program ι ρ β
  | .done a => f a
  | .call i next => .call i fun r => (next r).bind f

variable (machine : ι → σ → ρ × σ)

/-- Run against a machine. -/
def exec : Program ι ρ α → σ → α × σ
  | .done a, s => (a, s)
  | .call i next, s => (next (machine i s).1).exec (machine i s).2

/-- The calls made on the way. -/
def inputs : Program ι ρ α → σ → List ι
  | .done _, _ => []
  | .call i next, s => i :: (next (machine i s).1).inputs (machine i s).2

/-- If every call is made in a state that meets `C`, the end meets `Q`. -/
def Meets (C : ι → σ → Prop) (Q : α → σ → Prop) : Program ι ρ α → σ → Prop
  | .done a, s => Q a s
  | .call i next, s => C i s → Meets C Q (next (machine i s).1) (machine i s).2

variable {machine} {C : ι → σ → Prop} {Q R : α → σ → Prop}

/-- What `Meets` says of a run. -/
theorem Meets.end_of_along {p : Program ι ρ α} {s : σ} (h : Meets machine C Q p s)
    (hC : Along (fun i s => (machine i s).2) C (p.inputs machine s) s) :
    Q (p.exec machine s).1 (p.exec machine s).2 := by
  induction p generalizing s with
  | done a => exact h
  | call i next ih => exact ih _ (h hC.1) hC.2

theorem Meets.imp {p : Program ι ρ α} {s : σ} (hQR : ∀ a s, Q a s → R a s)
    (h : Meets machine C Q p s) : Meets machine C R p s := by
  induction p generalizing s with
  | done a => exact hQR a s h
  | call i next ih => exact fun hC => ih _ (h hC)

/-- The second program goes on where the first one ends. -/
theorem Meets.bind {p : Program ι ρ β} {f : β → Program ι ρ α} {s : σ}
    (h : Meets machine C (fun b s => Meets machine C Q (f b) s) p s) :
    Meets machine C Q (p.bind f) s := by
  induction p generalizing s with
  | done a => exact h
  | call i next ih => exact fun hC => ih _ (h hC)

end Program

/-! ## bodies with errors, panics and destructors -/

/-- A body that returns an `α`, fails with an `ε`, or panics. -/
def Body (ι ρ ε α : Type) : Type := Program ι ρ (Outcome ε α)

namespace Body

/-- `?` and sequencing. -/
protected def bind (x : Body ι ρ ε α) (f : α → Body ι ρ ε β) : Body ι ρ ε β :=
  @Program.bind ι ρ _ _ (fun
    | .ok a => f a
    | .err e => .done (.err e)
    | .panic => .done .panic) x

instance : Monad (Body ι ρ ε) where
  pure a := Program.done (.ok a)
  bind := Body.bind

/-- A call whose result is used with `?`. -/
def call (i : ι) : Body ι (Outcome ε α) ε α := Program.call i Program.done

/-- Use the result of a body with `unwrap`. -/
def unwrap (x : Body ι ρ ε α) : Body ι ρ ε α :=
  @Program.bind ι ρ _ _ (fun
    | .ok a => .done (.ok a)
    | .err _ | .panic => .done .panic) x

/-- A value that is dropped when its scope is left, however it is left. -/
def scope (make : Body ι ρ ε α) (drop : α → ι) (body : α → Body ι ρ ε β) : Body ι ρ ε β := do
  let a ← make
  @Program.bind ι ρ _ _ (fun o => .call (drop a) fun _ => .done o) (body a)

/-- `for` over the items of a list. -/
def forEach (f : α → Body ι ρ ε Unit) : List α → Body ι ρ ε Unit
  | [] => pure ()
  | a :: as => do
      f a
      forEach f as

/-- The end of a body: `ok` where it returns, `fail` where it does not. -/
inductive Ends (ok : α → σ → Prop) (fail : σ → Prop) : Outcome ε α → σ → Prop
  | ok {a : α} {s : σ} (h : ok a s) : Ends ok fail (.ok a) s
  | err {e : ε} {s : σ} (h : fail s) : Ends ok fail (.err e) s
  | panic {s : σ} (h : fail s) : Ends ok fail .panic s

theorem Ends.imp {ok ok' : α → σ → Prop} {fail fail' : σ → Prop} {o : Outcome ε α} {s : σ}
    (hok : ∀ a s, ok a s → ok' a s) (hfail : ∀ s, fail s → fail' s) (h : Ends ok fail o s) :
    Ends ok' fail' o s := by
  cases h with
  | ok h => exact .ok (hok _ _ h)
  | err h => exact .err (hfail _ h)
  | panic h => exact .panic (hfail _ h)

variable {machine : ι → σ → ρ × σ} {C : ι → σ → Prop} {s : σ}
variable {ok : β → σ → Prop} {fail : σ → Prop}

open Program

theorem meets_bind {x : Body ι ρ ε α} {f : α → Body ι ρ ε β}
    (h : Meets machine C (Ends (fun a s => Meets machine C (Ends ok fail) (f a) s) fail) x s) :
    Meets machine C (Ends ok fail) (x >>= f : Body ι ρ ε β) s := by
  refine Meets.bind (Meets.imp (fun o s ho => ?_) h)
  cases ho with
  | ok h => exact h
  | err h => exact .err h
  | panic h => exact .panic h

/-- A panic is no better than an error. -/
theorem meets_unwrap {x : Body ι ρ ε β} (h : Meets machine C (Ends ok fail) x s) :
    Meets machine C (Ends ok fail) (unwrap x) s := by
  refine Meets.bind (Meets.imp (fun o s ho => ?_) h)
  cases ho with
  | ok h => exact .ok h
  | err h => exact .panic h
  | panic h => exact .panic h

/-- **The rule for scopes**: the end is what the drop makes of the end of the
body, whichever it is. -/
theorem meets_scope {make : Body ι ρ ε α} {drop : α → ι} {body : α → Body ι ρ ε β}
    (h : Meets machine C (Ends (fun a s => Meets machine C
      (Ends (fun b s => C (drop a) s → ok b (machine (drop a) s).2)
        fun s => C (drop a) s → fail (machine (drop a) s).2) (body a) s) fail) make s) :
    Meets machine C (Ends ok fail) (scope make drop body) s := by
  refine meets_bind (Meets.imp (fun _ _ => Ends.imp (fun a s ha => ?_) fun _ hs => hs) h)
  refine Meets.bind (Meets.imp (fun o s ho => ?_) ha)
  cases ho with
  | ok h => exact fun hC => .ok (h hC)
  | err h => exact fun hC => .err (h hC)
  | panic h => exact fun hC => .panic (h hC)

/-- **The rule for loops**: `I i` holds after `i` rounds. -/
theorem meets_forEach {f : α → Body ι ρ ε Unit} {as : List α} (I : Nat → σ → Prop)
    (hround : ∀ i a s, as[i]? = some a → I i s →
      Meets machine C (Ends (fun _ => I (i + 1)) fail) (f a) s) (hs : I 0 s) :
    Meets machine C (Ends (fun _ => I as.length) fail) (forEach f as) s := by
  induction as generalizing I s with
  | nil => exact .ok hs
  | cons a as ih =>
      refine meets_bind (Meets.imp (fun _ _ => Ends.imp (fun _ s h1 => ?_) fun _ h => h)
        (hround 0 a s rfl hs))
      exact ih (fun i => I (i + 1)) (fun i b s hb => hround (i + 1) b s hb) h1

end Body

end Lib
