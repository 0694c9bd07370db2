/-!
# LvInterop.Lib.Exec

Function bodies of a language with `Result`, `?` and panics, as pure
functions on an explicit state.

A body run on a state ends in one of three ways (`Outcome`): it returns a
value, it returns an error early, or it panics.  In every case the state it
leaves is part of the result, so what a failing body has already done stays
visible to its caller.
-/

namespace Lib

/-- How a body ends. -/
inductive Outcome (ε α : Type) where
  | ok (value : α)
  | err (error : ε)
  | panic
deriving DecidableEq, Repr

/-- Change the value that is returned. -/
def Outcome.map (f : α → β) : Outcome ε α → Outcome ε β
  | .ok a => .ok (f a)
  | .err e => .err e
  | .panic => .panic

/-- The error that is returned. -/
def Outcome.error? : Outcome ε α → Option ε
  | .err e => some e
  | .ok _ | .panic => none

/-- A `Result` as the end of a body. -/
def Outcome.ofExcept : Except ε α → Outcome ε α
  | .ok a => .ok a
  | .error e => .err e

@[simp] theorem Outcome.ofExcept_ok (a : α) : ofExcept (.ok a : Except ε α) = .ok a := rfl

@[simp] theorem Outcome.ofExcept_error (e : ε) : ofExcept (.error e : Except ε α) = .err e := rfl

/-- A body over the state `σ` with error type `ε`. -/
def Exec (σ ε α : Type) : Type := σ → Outcome ε α × σ

namespace Exec

variable {σ ε α β : Type}

/-- `?` and sequencing: the rest runs only after a normal return. -/
protected def bind (x : Exec σ ε α) (f : α → Exec σ ε β) : Exec σ ε β := fun s =>
  match x s with
  | (.ok a, s') => f a s'
  | (.err e, s') => (.err e, s')
  | (.panic, s') => (.panic, s')

instance : Monad (Exec σ ε) where
  pure a := fun s => (.ok a, s)
  bind := Exec.bind

/-- Return an error. -/
def fail (e : ε) : Exec σ ε α := fun s => (.err e, s)

/-- Unwind. -/
def unwind : Exec σ ε α := fun s => (.panic, s)

/-- Use a `Result` with `?`. -/
def ofExcept (r : Except ε α) : Exec σ ε α := fun s => (.ofExcept r, s)

/-- Use a `Result` with `unwrap`. -/
def unwrap : Except ε α → Exec σ ε α
  | .ok a => pure a
  | .error _ => unwind

/-- Look at the state. -/
def read (f : σ → α) : Exec σ ε α := fun s => (.ok (f s), s)

/-- Look at the state and use the `Result` with `?`. -/
def tryRead (f : σ → Except ε α) : Exec σ ε α := fun s => ofExcept (f s) s

/-- Look at the state and `unwrap` the `Result`. -/
def unwrapRead (f : σ → Except ε α) : Exec σ ε α := fun s => unwrap (f s) s

/-- Change the state. -/
def modify (f : σ → σ) : Exec σ ε Unit := fun s => (.ok (), f s)

/-- A call that always returns, such as a foreign function. -/
def call (f : σ → α × σ) : Exec σ ε α := fun s => (.ok (f s).1, (f s).2)

/-- Run a body for its `Result`; only a panic goes further. -/
def result (x : Exec σ ε α) : Exec σ ε (Except ε α) := fun s =>
  match x s with
  | (.ok a, s') => (.ok (.ok a), s')
  | (.err e, s') => (.ok (.error e), s')
  | (.panic, s') => (.panic, s')

/-! ## running -/

theorem bind_run (x : Exec σ ε α) (f : α → Exec σ ε β) (s : σ) :
    (x >>= f) s = match x s with
      | (.ok a, s') => f a s'
      | (.err e, s') => (.err e, s')
      | (.panic, s') => (.panic, s') := rfl

@[simp] theorem pure_run (a : α) (s : σ) : (pure a : Exec σ ε α) s = (.ok a, s) := rfl

@[simp] theorem fail_run (e : ε) (s : σ) : (fail e : Exec σ ε α) s = (.err e, s) := rfl

@[simp] theorem unwind_run (s : σ) : (unwind : Exec σ ε α) s = (.panic, s) := rfl

@[simp] theorem ofExcept_run (r : Except ε α) (s : σ) :
    (ofExcept r : Exec σ ε α) s = (.ofExcept r, s) := rfl

@[simp] theorem ofExcept_ok (a : α) : (ofExcept (.ok a) : Exec σ ε α) = pure a := rfl

@[simp] theorem ofExcept_error (e : ε) : (ofExcept (.error e) : Exec σ ε α) = fail e := rfl

@[simp] theorem unwrap_ok (a : α) : (unwrap (.ok a) : Exec σ ε α) = pure a := rfl

@[simp] theorem unwrap_error (e : ε) : (unwrap (.error e) : Exec σ ε α) = unwind := rfl

@[simp] theorem read_run (f : σ → α) (s : σ) : (read f : Exec σ ε α) s = (.ok (f s), s) := rfl

theorem tryRead_of_ok {f : σ → Except ε α} {s : σ} {a : α} (h : f s = .ok a) :
    (tryRead f : Exec σ ε α) s = (.ok a, s) := by
  rw [tryRead, h, ofExcept_ok, pure_run]

theorem unwrapRead_of_ok {f : σ → Except ε α} {s : σ} {a : α} (h : f s = .ok a) :
    (unwrapRead f : Exec σ ε α) s = (.ok a, s) := by
  rw [unwrapRead, h, unwrap_ok, pure_run]

theorem unwrapRead_of_error {f : σ → Except ε α} {s : σ} {e : ε} (h : f s = .error e) :
    (unwrapRead f : Exec σ ε α) s = (.panic, s) := by
  rw [unwrapRead, h, unwrap_error, unwind_run]

@[simp] theorem modify_run (f : σ → σ) (s : σ) :
    (modify f : Exec σ ε Unit) s = (.ok (), f s) := rfl

@[simp] theorem call_run (f : σ → α × σ) (s : σ) :
    (call f : Exec σ ε α) s = (.ok (f s).1, (f s).2) := rfl

/-- After a normal return the rest runs on the state left behind. -/
theorem bind_of_ok {x : Exec σ ε α} {f : α → Exec σ ε β} {s s' : σ} {a : α}
    (h : x s = (.ok a, s')) : (x >>= f) s = f a s' := by
  rw [bind_run, h]

/-- An error ends the body. -/
theorem bind_of_err {x : Exec σ ε α} {f : α → Exec σ ε β} {s s' : σ} {e : ε}
    (h : x s = (.err e, s')) : (x >>= f) s = (.err e, s') := by
  rw [bind_run, h]

/-- A panic ends the body. -/
theorem bind_of_panic {x : Exec σ ε α} {f : α → Exec σ ε β} {s s' : σ}
    (h : x s = (.panic, s')) : (x >>= f) s = (.panic, s') := by
  rw [bind_run, h]

@[simp] theorem pure_bind_run (a : α) (f : α → Exec σ ε β) (s : σ) :
    ((pure a : Exec σ ε α) >>= f) s = f a s := rfl

@[simp] theorem read_bind_run (g : σ → α) (f : α → Exec σ ε β) (s : σ) :
    ((read g : Exec σ ε α) >>= f) s = f (g s) s := rfl

@[simp] theorem call_bind_run (g : σ → α × σ) (f : α → Exec σ ε β) (s : σ) :
    ((call g : Exec σ ε α) >>= f) s = f (g s).1 (g s).2 := rfl

@[simp] theorem modify_bind_run (g : σ → σ) (f : Unit → Exec σ ε β) (s : σ) :
    ((modify g : Exec σ ε Unit) >>= f) s = f () (g s) := rfl

/-! ## bodies that do not panic -/

/-- The body returns, with a value or an error, from every state. -/
def NoPanic (x : Exec σ ε α) : Prop := ∀ s, (x s).1 ≠ .panic

theorem NoPanic.bind {x : Exec σ ε α} {f : α → Exec σ ε β} (hx : x.NoPanic)
    (hf : ∀ a, (f a).NoPanic) : (x >>= f).NoPanic := by
  intro s
  rcases hr : x s with ⟨o, s'⟩
  cases o with
  | ok a =>
      rw [bind_of_ok hr]
      exact hf a s'
  | err e =>
      rw [bind_of_err hr]
      exact nofun
  | panic => exact absurd (congrArg Prod.fst hr) (hx s)

theorem noPanic_ofExcept (r : Except ε α) : (ofExcept r : Exec σ ε α).NoPanic := by
  intro s
  cases r with
  | ok a => exact nofun
  | error e => exact nofun

theorem noPanic_tryRead (f : σ → Except ε α) : (tryRead f).NoPanic :=
  fun s => noPanic_ofExcept (f s) s

theorem noPanic_call (f : σ → α × σ) : (call f : Exec σ ε α).NoPanic := fun _ => nofun

theorem noPanic_modify (f : σ → σ) : (modify f : Exec σ ε Unit).NoPanic := fun _ => nofun

/-- Looking at the `Result` of a body that does not panic. -/
theorem result_of_noPanic {x : Exec σ ε α} (h : x.NoPanic) (s : σ) :
    ∃ r, result x s = (.ok r, (x s).2) := by
  rcases hr : x s with ⟨o, s'⟩
  cases o with
  | ok a => exact ⟨.ok a, by rw [result, hr]⟩
  | err e => exact ⟨.error e, by rw [result, hr]⟩
  | panic => exact absurd (congrArg Prod.fst hr) (h s)

/-! ## what bodies leave -/

/-- Whatever way the body ends, the state it leaves is related to the state it
was run on. -/
def Leaves (R : σ → σ → Prop) (x : Exec σ ε α) : Prop := ∀ s, R s (x s).2

theorem Leaves.bind {R : σ → σ → Prop} (htrans : ∀ a b c, R a b → R b c → R a c)
    {x : Exec σ ε α} {f : α → Exec σ ε β} (hx : x.Leaves R) (hf : ∀ a, (f a).Leaves R) :
    (x >>= f).Leaves R := by
  intro s
  rcases hr : x s with ⟨o, s'⟩
  have hs := hx s
  rw [hr] at hs
  cases o with
  | ok a =>
      rw [bind_of_ok hr]
      exact htrans _ _ _ hs (hf a s')
  | err e =>
      rw [bind_of_err hr]
      exact hs
  | panic =>
      rw [bind_of_panic hr]
      exact hs

theorem leaves_unwrapRead {R : σ → σ → Prop} (hrefl : ∀ a, R a a) (f : σ → Except ε α) :
    (unwrapRead f).Leaves R := by
  intro s
  cases hr : f s with
  | ok a =>
      rw [unwrapRead_of_ok hr]
      exact hrefl s
  | error e =>
      rw [unwrapRead_of_error hr]
      exact hrefl s

end Exec

end Lib
