import Mathlib.Logic.Function.Basic

/-!
# LvInterop.Lib.Lazy

Values that are computed at first use, in a program that has better things to
do.

A program has a cell for each value (`cells`).  The first step that needs a
value computes it, in an environment that also changes by itself; whatever has
become of the environment later, the cell keeps what it holds.  A program that
has all values from the start cannot be told from it (`LazyRun.eager`), and
what ties the cells to the environment is an invariant of the steps that
compute (`LazyRun.invariant`).
-/

namespace Lib

variable {ι κ μ β : Type} {α : ι → Type}

/-- The cells of a program, the environment they are filled from, and the rest
of its state. -/
structure Lazily (α : ι → Type) (κ μ : Type) where
  cells : (i : ι) → Option (α i)
  env : κ
  state : μ

/-- What happens: the environment changes, or the program takes a step that may
need the value `i`. -/
inductive LazyEvent (α : ι → Type) (κ μ β : Type) where
  | outside (g : κ → κ)
  | use (i : ι) (f : α i → μ → β × μ)

/-- The step does not look at its value. -/
def Ignores {γ : Type} (f : γ → μ → β × μ) (s : μ) : Prop := ∀ a b, f a s = f b s

variable [DecidableEq ι]

/-- One event, and what the step of the program returns.  A step that does not
look at its value may or may not have it computed. -/
inductive LazyStep (init : (i : ι) → κ → α i × κ) :
    LazyEvent α κ μ β → Lazily α κ μ → List β → Lazily α κ μ → Prop
  | outside (g : κ → κ) (p : Lazily α κ μ) :
      LazyStep init (.outside g) p [] { p with env := g p.env }
  | held {i : ι} (f : α i → μ → β × μ) {p : Lazily α κ μ} {a : α i} (h : p.cells i = some a) :
      LazyStep init (.use i f) p [(f a p.state).1] { p with state := (f a p.state).2 }
  | first {i : ι} (f : α i → μ → β × μ) {p : Lazily α κ μ} (h : p.cells i = none) :
      LazyStep init (.use i f) p [(f (init i p.env).1 p.state).1]
        ⟨Function.update p.cells i (some (init i p.env).1), (init i p.env).2,
          (f (init i p.env).1 p.state).2⟩
  | unused {i : ι} {f : α i → μ → β × μ} {p : Lazily α κ μ} (h : p.cells i = none)
      (hf : Ignores f p.state) (a : α i) :
      LazyStep init (.use i f) p [(f a p.state).1] { p with state := (f a p.state).2 }

/-- The events of a run, and what its steps return. -/
inductive LazyRun (init : (i : ι) → κ → α i × κ) :
    List (LazyEvent α κ μ β) → Lazily α κ μ → List β → Lazily α κ μ → Prop
  | nil (p : Lazily α κ μ) : LazyRun init [] p [] p
  | cons {e es p q r bs cs} (h : LazyStep init e p bs q) (hs : LazyRun init es q cs r) :
      LazyRun init (e :: es) p (bs ++ cs) r

/-- The run in which each step has its value computed. -/
def force (init : (i : ι) → κ → α i × κ) :
    List (LazyEvent α κ μ β) → Lazily α κ μ → List β × Lazily α κ μ
  | [], p => ([], p)
  | .outside g :: es, p => force init es { p with env := g p.env }
  | .use i f :: es, p =>
      let v := match p.cells i with
        | some a => (a, p.env)
        | none => init i p.env
      let r := f v.1 p.state
      let rest := force init es ⟨Function.update p.cells i (some v.1), v.2, r.2⟩
      (r.1 :: rest.1, rest.2)

/-- The same events in a program that has the values. -/
def eager (a : (i : ι) → α i) : List (LazyEvent α κ μ β) → μ → List β × μ
  | [], s => ([], s)
  | .outside _ :: es, s => eager a es s
  | .use i f :: es, s =>
      let r := f (a i) s
      let rest := eager a es r.2
      (r.1 :: rest.1, rest.2)

variable {init : (i : ι) → κ → α i × κ} {e : LazyEvent α κ μ β} {es : List (LazyEvent α κ μ β)}
variable {p q : Lazily α κ μ} {bs : List β}

/-- Every list of events is one of a run. -/
theorem LazyRun.force (es : List (LazyEvent α κ μ β)) (p : Lazily α κ μ) :
    LazyRun init es p (force init es p).1 (force init es p).2 := by
  induction es generalizing p with
  | nil => exact .nil p
  | cons e es ih =>
      cases e with
      | outside g => exact .cons (.outside g p) (ih _)
      | use i f =>
          cases hcell : p.cells i with
          | none =>
              simp only [Lib.force, hcell]
              exact .cons (.first f hcell) (ih _)
          | some a =>
              have hcells : Function.update p.cells i (some a) = p.cells := by
                rw [← hcell, Function.update_eq_self]
              simp only [Lib.force, hcell, hcells]
              exact .cons (.held f hcell) (ih _)

/-- A cell that is filled stays as it is. -/
theorem LazyStep.cells_eq (h : LazyStep init e p bs q) {i : ι} {a : α i} (ha : p.cells i = some a) :
    q.cells i = some a := by
  cases h with
  | outside g => exact ha
  | held f hcell => exact ha
  | unused hcell hf b => exact ha
  | @first j f _ hcell =>
      by_cases hij : i = j
      · subst hij
        rw [hcell] at ha
        cases ha
      · simp only [Function.update_of_ne hij, ha]

theorem LazyRun.cells_eq (h : LazyRun init es p bs q) {i : ι} {a : α i} (ha : p.cells i = some a) :
    q.cells i = some a := by
  induction h with
  | nil => exact ha
  | cons hstep _ ih => exact ih (hstep.cells_eq ha)

/-- **A lazy run is an eager one** with the values it ends with, and any for
the cells that are still empty. -/
theorem LazyRun.eager (h : LazyRun init es p bs q) (a : (i : ι) → α i) :
    Lib.eager (fun i => (q.cells i).getD (a i)) es p.state = (bs, q.state) := by
  induction h with
  | nil => rfl
  | cons hstep hrun ih =>
      cases hstep with
      | outside g => exact ih
      | held f hcell =>
          have hval := hrun.cells_eq hcell
          simp only [Lib.eager, hval, Option.getD_some, ih, List.singleton_append]
      | first f hcell =>
          have hval := hrun.cells_eq (Function.update_self _ _ _)
          simp only [Lib.eager, hval, Option.getD_some, ih, List.singleton_append]
      | unused hcell hf b =>
          simp only [Lib.eager, hf _ b, ih, List.singleton_append]

/-- **An invariant of cells and environment** that what happens outside keeps,
and the computing of each value. -/
theorem LazyRun.invariant {I : ((i : ι) → Option (α i)) → κ → Prop} (h : LazyRun init es p bs q)
    (hout : ∀ g, .outside g ∈ es → ∀ c k, I c k → I c (g k))
    (hinit : ∀ i c k, c i = none → I c k →
      I (Function.update c i (some (init i k).1)) (init i k).2)
    (hp : I p.cells p.env) : I q.cells q.env := by
  induction h with
  | nil => exact hp
  | cons hstep _ ih =>
      refine ih (fun g hg => hout g (List.mem_cons_of_mem _ hg)) ?_
      cases hstep with
      | outside g => exact hout g List.mem_cons_self _ _ hp
      | held f hcell => exact hp
      | first f hcell => exact hinit _ _ _ hcell hp
      | unused hcell hf b => exact hp

end Lib
