import LvInterop.Lib.Bytes
import Mathlib.Algebra.BigOperators.Group.List.Basic
import Mathlib.Algebra.Ring.Int.Defs

/-!
# LvInterop.Lib.RowMajor

Multi-indices of a shape and their row-major order: the last axis varies
fastest.

`indices` lists them in that order, `flatIndex` computes the position of one;
`getElem?_indices` says that the two agree.  `strides` are the weights with
which a contiguous array addresses its elements.
-/

namespace Lib

/-- `ix` is an index of an array of shape `dims`. -/
def IsIndex (dims ix : List Nat) : Prop := List.Forall₂ (· < ·) ix dims

/-- All indices, in row-major order. -/
def indices : List Nat → List (List Nat)
  | [] => [[]]
  | d :: dims => (List.range d).flatMap fun i => (indices dims).map (i :: ·)

/-- The position of an index in row-major order. -/
def flatIndex : List Nat → List Nat → Nat
  | _ :: dims, i :: ix => dims.prod * i + flatIndex dims ix
  | _, _ => 0

/-- Row-major strides. -/
def strides : List Nat → List Nat
  | [] => []
  | _ :: dims => dims.prod :: strides dims

@[simp] theorem length_indices (dims : List Nat) : (indices dims).length = dims.prod := by
  induction dims with
  | nil => rfl
  | cons d dims ih =>
      have hlen : ∀ i, ((indices dims).map (i :: ·)).length = dims.prod := fun i => by simp [ih]
      rw [indices, length_flatMap_of_length hlen, List.length_range, List.prod_cons, Nat.mul_comm]

/-- The position of an index is below the number of elements. -/
theorem flatIndex_lt {dims ix : List Nat} (h : IsIndex dims ix) : flatIndex dims ix < dims.prod := by
  induction h with
  | nil => exact Nat.one_pos
  | @cons i d ix dims hi _ ih =>
      have hmul : dims.prod * (i + 1) ≤ dims.prod * d := Nat.mul_le_mul_left _ hi
      rw [flatIndex, List.prod_cons, Nat.mul_comm d]
      rw [Nat.mul_succ] at hmul
      omega

/-- An index is listed at its position. -/
theorem getElem?_indices {dims ix : List Nat} (h : IsIndex dims ix) :
    (indices dims)[flatIndex dims ix]? = some ix := by
  induction h with
  | nil => rfl
  | @cons i d ix dims hi hix ih =>
      have hlen : ∀ i, ((indices dims).map (i :: ·)).length = dims.prod := fun i => by simp
      have hpiece := piece_flatMap hlen (List.range d) i (by simpa using hi)
      rw [List.getElem_range] at hpiece
      rw [indices, flatIndex, ← getElem?_piece (flatIndex_lt hix), hpiece, List.getElem?_map, ih]
      rfl

/-- Different indices have different positions. -/
theorem flatIndex_inj {dims ix jx : List Nat} (hix : IsIndex dims ix) (hjx : IsIndex dims jx)
    (h : flatIndex dims ix = flatIndex dims jx) : ix = jx := by
  have hi := getElem?_indices hix
  rw [h, getElem?_indices hjx] at hi
  exact (Option.some.inj hi).symm

/-- Every position is that of an index. -/
theorem exists_flatIndex {dims : List Nat} {i : Nat} (h : i < dims.prod) :
    ∃ ix, IsIndex dims ix ∧ flatIndex dims ix = i := by
  induction dims generalizing i with
  | nil => exact ⟨[], .nil, (Nat.lt_one_iff.mp h).symm⟩
  | cons d dims ih =>
      rw [List.prod_cons, Nat.mul_comm] at h
      have hpos : 0 < dims.prod := Nat.pos_of_ne_zero fun h0 => by simp [h0] at h
      obtain ⟨ix, hix, hflat⟩ := ih (Nat.mod_lt i hpos)
      refine ⟨i / dims.prod :: ix, .cons (Nat.div_lt_of_lt_mul h) hix, ?_⟩
      rw [flatIndex, hflat, Nat.div_add_mod]

/-- The strides address an index at its position. -/
theorem sum_strides {dims ix : List Nat} (h : IsIndex dims ix) :
    (List.zipWith (fun (s : Int) (i : Nat) => s * i) ((strides dims).map Nat.cast) ix).sum =
      (flatIndex dims ix : Nat) := by
  induction h with
  | nil => rfl
  | cons _ _ ih =>
      rw [strides, List.map_cons, List.zipWith_cons_cons, List.sum_cons, ih, flatIndex]
      push_cast
      rfl

end Lib
