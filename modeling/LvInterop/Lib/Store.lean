import Mathlib.Logic.Function.Basic

/-!
# LvInterop.Lib.Store

A store of values that several clients use by name, as a specification: an
event says what may become of a partial map.

An event is `Local` when it changes only the names it mentions or is granted,
and does to a part of the store that has these names what it does to the whole.
The events of several clients, each of which keeps to its own names, then come
apart: on the names of one client the whole run is a run of the events of that
client alone (`Local.project`).  Names change hands only through the store, so
a name that one client gives up may be granted to another.
-/

namespace Lib

open Classical

variable {ε κ ν χ : Type}

/-- The value held under each name. -/
abbrev Store (κ ν : Type) : Type := κ → Option ν

/-- The part of a store that is held under the names of `P`. -/
noncomputable def Store.only (σ : Store κ ν) (P : κ → Prop) : Store κ ν := fun k =>
  if P k then σ k else none

theorem Store.only_of_mem {σ : Store κ ν} {P : κ → Prop} {k : κ} (h : P k) : σ.only P k = σ k :=
  if_pos h

theorem Store.only_eq_none {σ : Store κ ν} {P : κ → Prop} {k : κ} (h : σ k = none) :
    σ.only P k = none := by
  simp [only, h]

/-- Stores that agree on a name, if it is one of `P`. -/
theorem Store.only_congr_at {σ σ' : Store κ ν} {P P' : κ → Prop} {k : κ} (hP : P' k ↔ P k)
    (h : P k → σ' k = σ k) : σ'.only P' k = σ.only P k := by
  by_cases hk : P k
  · rw [only_of_mem hk, only_of_mem (hP.mpr hk), h hk]
  · rw [only, only, if_neg hk, if_neg (fun h' => hk (hP.mp h'))]

/-- Stores that agree on the names of `P`. -/
theorem Store.only_congr {σ σ' : Store κ ν} {P P' : κ → Prop} (hP : ∀ k, P' k ↔ P k)
    (h : ∀ k, P k → σ' k = σ k) : σ'.only P' = σ.only P :=
  funext fun k => only_congr_at (hP k) (h k)

/-- One event after the other. -/
inductive Runs (step : ε → Store κ ν → Store κ ν → Prop) : Store κ ν → List ε → Store κ ν → Prop
  | nil (σ) : Runs step σ [] σ
  | cons {e es σ₁ σ₂ σ₃} (h : step e σ₁ σ₂) (hs : Runs step σ₂ es σ₃) : Runs step σ₁ (e :: es) σ₃

/-- The names an event mentions, is granted and gives up. -/
structure Names (ε κ : Type) where
  mentioned : ε → κ → Prop
  granted : ε → κ → Prop
  released : ε → κ → Prop

namespace Names

variable (u : Names ε κ)

/-- Who holds the names after an event of `c`. -/
noncomputable def holders (c : χ) (e : ε) (own : κ → Option χ) : κ → Option χ := fun k =>
  if u.granted e k then some c else if u.released e k then none else own k

/-- The event of `c` mentions names that `c` holds, and is granted names that
nobody holds. -/
structure Keeps (c : χ) (e : ε) (own : κ → Option χ) : Prop where
  mentioned : ∀ k, u.mentioned e k → own k = some c
  granted : ∀ k, u.granted e k → own k = none

/-- Each event of a run keeps to the names of its client. -/
def KeepsAll : List (χ × ε) → (κ → Option χ) → Prop
  | [], _ => True
  | (c, e) :: es, own => u.Keeps c e own ∧ KeepsAll es (u.holders c e own)

/-- Who holds the names after a run. -/
noncomputable def holdersAfter : List (χ × ε) → (κ → Option χ) → κ → Option χ
  | [], own => own
  | (c, e) :: es, own => holdersAfter es (u.holders c e own)

end Names

/-- Events that are about their names. -/
structure Local (u : Names ε κ) (step : ε → Store κ ν → Store κ ν → Prop) : Prop where
  released : ∀ {e k}, u.released e k → u.mentioned e k
  frame : ∀ {e σ σ'}, step e σ σ' → ∀ k, ¬ u.mentioned e k → ¬ u.granted e k → σ' k = σ k
  only : ∀ {e σ σ'} (P : κ → Prop), step e σ σ' → (∀ k, u.mentioned e k → P k) →
    step e (σ.only P) (σ'.only fun k => u.granted e k ∨ P k ∧ ¬ u.released e k)

namespace Local

variable {u : Names ε κ} {step : ε → Store κ ν → Store κ ν → Prop} {σ σ' : Store κ ν}
variable {own : κ → Option χ} {c d : χ} {e : ε}

/-- An event of `c`, on the names of `c`. -/
theorem only_self (hu : Local u step) (hk : u.Keeps c e own) (h : step e σ σ') :
    step e (σ.only fun k => own k = some c) (σ'.only fun k => u.holders c e own k = some c) := by
  have hnames : (fun k => u.holders c e own k = some c) =
      fun k => u.granted e k ∨ own k = some c ∧ ¬ u.released e k := by
    funext k
    by_cases hg : u.granted e k <;> by_cases hr : u.released e k <;> simp [Names.holders, hg, hr]
  rw [hnames]
  exact hu.only _ h hk.mentioned

/-- An event of another client is not seen on the names of `c`. -/
theorem only_other (hu : Local u step) (hk : u.Keeps d e own) (hne : d ≠ c) (h : step e σ σ') :
    (σ'.only fun k => u.holders d e own k = some c) = σ.only fun k => own k = some c := by
  have hfree : ∀ k, own k = some c → ¬ u.mentioned e k ∧ ¬ u.granted e k := by
    intro k hown
    refine ⟨fun hm => hne ?_, fun hg => ?_⟩
    · exact Option.some.inj ((hk.mentioned k hm).symm.trans hown)
    · cases (hk.granted k hg).symm.trans hown
  refine Store.only_congr (fun k => ?_) fun k hown => ?_
  · constructor
    · intro hown
      by_cases hg : u.granted e k
      · simp [Names.holders, hg, hne] at hown
      · by_cases hr : u.released e k
        · simp [Names.holders, hg, hr] at hown
        · simpa [Names.holders, hg, hr] using hown
    · intro hown
      obtain ⟨hm, hg⟩ := hfree k hown
      have hr : ¬ u.released e k := fun hr => hm (hu.released hr)
      simpa [Names.holders, hg, hr] using hown
  · obtain ⟨hm, hg⟩ := hfree k hown
    exact hu.frame h k hm hg

/-- **Interleaved clients come apart**: on the names of `c`, a run in which
every client keeps to its own names is a run of the events of `c`. -/
theorem project [DecidableEq χ] (hu : Local u step) (c : χ) {es : List (χ × ε)} {own : κ → Option χ}
    {σ σ' : Store κ ν} (hrun : Runs step σ (es.map Prod.snd) σ') (hk : u.KeepsAll es own) :
    Runs step (σ.only fun k => own k = some c) ((es.filter fun p => p.1 = c).map Prod.snd)
      (σ'.only fun k => u.holdersAfter es own k = some c) := by
  induction es generalizing own σ with
  | nil =>
      cases hrun
      exact .nil _
  | cons p es ih =>
      obtain ⟨d, e⟩ := p
      obtain ⟨hhead, hrest⟩ := hk
      cases hrun with
      | cons hstep hruns =>
        have htail := ih hruns hrest
        by_cases hdc : d = c
        · subst hdc
          rw [List.filter_cons_of_pos (by simp), List.map_cons]
          exact .cons (hu.only_self hhead hstep) htail
        · rw [List.filter_cons_of_neg (by simpa using hdc), ← hu.only_other hhead hdc hstep]
          exact htail

end Local

end Lib
