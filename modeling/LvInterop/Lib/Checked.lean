import Mathlib.Algebra.BigOperators.Group.List.Basic
import Mathlib.Data.Nat.Basic

/-!
# LvInterop.Lib.Checked

Loops that stop at the first element they cannot handle: conversion of a list
entry by entry, and the running product of converted entries with an upper
bound on every intermediate value.

A running product that stops says nothing definite about the whole product: a
later zero could have brought it back.  `checkedFold_eq_none` is what remains.
-/

namespace Lib

/-! ## conversion -/

/-- A conversion loop succeeds when every entry converts. -/
theorem mapM_eq_some_iff {f : α → Option β} {l : List α} {l' : List β} :
    l.mapM f = some l' ↔ l.map f = l'.map some := by
  induction l generalizing l' with
  | nil => cases l' <;> simp
  | cons a l ih =>
      cases l' with
      | nil => simp [Option.bind_eq_some_iff]
      | cons b bs => simp [Option.bind_eq_some_iff, ih]

/-- It fails when some entry does not. -/
theorem mapM_eq_none_iff {f : α → Option β} {l : List α} :
    l.mapM f = none ↔ ∃ a ∈ l, f a = none := by
  induction l with
  | nil => simp
  | cons a l ih =>
      cases hf : f a with
      | none => simp [hf]
      | some b =>
          cases hl : l.mapM f with
          | none => simp [hf, hl, ← ih]
          | some bs => simp [hf, hl, ← ih]

/-- What a conversion says of an entry it says of the list. -/
theorem map_eq_map_some_iff {f : α → Option β} {g : α → γ} {k : β → γ}
    (h : ∀ a b, f a = some b ↔ g a = k b) {l : List α} {l' : List β} :
    l.map f = l'.map some ↔ l.map g = l'.map k := by
  induction l generalizing l' with
  | nil => cases l' <;> simp
  | cons a l ih =>
      cases l' with
      | nil => simp
      | cons b l' => simp [h, ih]

/-- A converted list is as long as its source. -/
theorem length_of_mapM_eq_some {f : α → Option β} {l : List α} {l' : List β}
    (h : l.mapM f = some l') : l'.length = l.length := by
  have hlen := congrArg List.length (mapM_eq_some_iff.mp h)
  simpa using hlen.symm

/-! ## the bounded running product -/

/-- Multiplication with an upper bound on the result. -/
def checkedMul (max a b : Nat) : Option Nat := if a * b ≤ max then some (a * b) else none

/-- The running product of the converted entries, from `acc`. -/
def checkedFold (max : Nat) (f : α → Option Nat) (acc : Nat) (l : List α) : Option Nat :=
  l.foldlM (fun acc a => do
    let n ← f a
    checkedMul max acc n) acc

theorem checkedFold_cons (max : Nat) (f : α → Option Nat) (acc : Nat) (a : α) (l : List α) :
    checkedFold max f acc (a :: l) =
      (f a).bind fun n => (checkedMul max acc n).bind fun acc => checkedFold max f acc l := by
  cases hf : f a with
  | none => simp [checkedFold, hf]
  | some n => simp [checkedFold, hf]

/-- A fold that arrives has converted every entry and multiplied them all. -/
theorem checkedFold_eq_some {max : Nat} {f : α → Option Nat} {acc n : Nat} {l : List α}
    (hacc : acc ≤ max) (h : checkedFold max f acc l = some n) :
    ∃ ns : List Nat, l.map f = ns.map some ∧ n = acc * ns.prod ∧ n ≤ max := by
  induction l generalizing acc with
  | nil =>
      obtain rfl := Option.some.inj h
      exact ⟨[], rfl, by simp, hacc⟩
  | cons a l ih =>
      rw [checkedFold_cons, Option.bind_eq_some_iff] at h
      obtain ⟨k, hk, h⟩ := h
      rw [Option.bind_eq_some_iff] at h
      obtain ⟨acc', hacc', h⟩ := h
      unfold checkedMul at hacc'
      split_ifs at hacc' with hle
      obtain rfl := Option.some.inj hacc'
      obtain ⟨ns, hns, hn, hmax⟩ := ih hle h
      refine ⟨k :: ns, by simp [hk, hns], ?_, hmax⟩
      rw [hn, List.prod_cons, Nat.mul_assoc]

/-- A fold that stops on entries that all convert has met an overflow; the
whole product is out of bounds too, unless a later entry is zero. -/
theorem checkedFold_eq_none {max : Nat} {f : α → Option Nat} {acc : Nat} {l : List α}
    {ns : List Nat} (hns : l.map f = ns.map some) (h : checkedFold max f acc l = none) :
    ns.prod = 0 ∨ max < acc * ns.prod := by
  induction l generalizing acc ns with
  | nil => cases h
  | cons a l ih =>
      cases ns with
      | nil => cases hns
      | cons k ns =>
          obtain ⟨hk, hns⟩ := List.cons.inj hns
          rw [checkedFold_cons, hk, Option.bind_some] at h
          by_cases hle : acc * k ≤ max
          · rw [checkedMul, if_pos hle, Option.bind_some] at h
            rw [List.prod_cons, ← Nat.mul_assoc, Nat.mul_eq_zero]
            exact (ih hns h).imp_left .inr
          · rw [List.prod_cons, ← Nat.mul_assoc]
            by_cases hz : ns.prod = 0
            · exact .inl (by rw [hz, Nat.mul_zero])
            · have hmul : acc * k * 1 ≤ acc * k * ns.prod :=
                Nat.mul_le_mul_left _ (Nat.pos_of_ne_zero hz)
              exact .inr (by omega)

end Lib
