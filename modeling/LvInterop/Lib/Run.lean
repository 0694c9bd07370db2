/-!
# LvInterop.Lib.Run

Properties of whole runs of a machine that takes one input at a time.

A property of a step sees the input and the state before it.  `Along` says
that it holds of every step of a run.  A run is covered by an invariant that
each step keeps (`Along.of_invariant`); where the property is what keeps the
invariant, it holds along the run exactly when its condition does
(`Along.iff_of_invariant`).
-/

namespace Lib

variable {ι σ : Type}

/-- `P` holds of every step of the run of the inputs from a state. -/
def Along (step : ι → σ → σ) (P : ι → σ → Prop) : List ι → σ → Prop
  | [], _ => True
  | i :: is, s => P i s ∧ Along step P is (step i s)

variable {step : ι → σ → σ} {P L C : ι → σ → Prop} {I : σ → Prop}

/-- What implies the property of a step implies it along the run. -/
theorem Along.imp (h : ∀ i s, L i s → P i s) {is : List ι} {s : σ} (hL : Along step L is s) :
    Along step P is s := by
  induction is generalizing s with
  | nil => exact trivial
  | cons i is ih => exact ⟨h i s hL.1, ih hL.2⟩

/-- **The run rule**: legal steps keep the invariant, and the invariant gives
the property of each of them. -/
theorem Along.of_invariant (hkeep : ∀ i s, I s → L i s → I (step i s))
    (hP : ∀ i s, I s → L i s → P i s) (is : List ι) (s : σ) (hs : I s)
    (hL : Along step L is s) : Along step P is s := by
  induction is generalizing s with
  | nil => exact trivial
  | cons i is ih => exact ⟨hP i s hs hL.1, ih (step i s) (hkeep i s hs hL.1) hL.2⟩

/-- The run rule for a condition that decides the property of each step and
without which the invariant is lost. -/
theorem Along.iff_of_invariant (hkeep : ∀ i s, I s → L i s → C i s → I (step i s))
    (hP : ∀ i s, I s → L i s → (P i s ↔ C i s)) (is : List ι) (s : σ) (hs : I s)
    (hL : Along step L is s) : Along step P is s ↔ Along step C is s := by
  induction is generalizing s with
  | nil => exact Iff.rfl
  | cons i is ih =>
      have hhead := hP i s hs hL.1
      constructor
      · rintro ⟨hp, hrest⟩
        have hc := hhead.mp hp
        exact ⟨hc, (ih (step i s) (hkeep i s hs hL.1 hc) hL.2).mp hrest⟩
      · rintro ⟨hc, hrest⟩
        exact ⟨hhead.mpr hc, (ih (step i s) (hkeep i s hs hL.1 hc) hL.2).mpr hrest⟩

end Lib
