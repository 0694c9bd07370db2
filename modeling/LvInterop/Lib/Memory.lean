import LvInterop.Lib.Bytes

/-!
# LvInterop.Lib.Memory

A flat byte-addressed memory: a total function from addresses to bytes, read
and written by ranges.  Nothing here knows which ranges are allocated, so an
access outside a block is an ordinary read or write of somebody else's bytes,
as it is on the machine.

The laws are the usual three: a write is read back where it was made
(`readBytes_writeBytes`), an apart range does not see it
(`readBytes_writeBytes_of_apart`), and ranges split (`readBytes_add`).
-/

namespace Lib

/-- Byte-addressed memory. -/
abbrev Mem := Nat → UInt8

/-- The `n` bytes from address `a`. -/
def readBytes (m : Mem) (a n : Nat) : List UInt8 := (List.range n).map fun i => m (a + i)

/-- The memory after storing `bs` from address `a`. -/
def writeBytes (m : Mem) (a : Nat) (bs : List UInt8) : Mem := fun i =>
  if h : a ≤ i ∧ i - a < bs.length then bs[i - a] else m i

/-- The ranges `[a, a + n)` and `[b, b + l)` share no address.  An empty range
is apart from every range. -/
def Apart (a n b l : Nat) : Prop := ∀ i < n, ∀ j < l, a + i ≠ b + j

/-! ## ranges -/

theorem Apart.symm {a n b l : Nat} (h : Apart a n b l) : Apart b l a n :=
  fun j hj i hi he => h i hi j hj he.symm

/-- Apartness passes to a range inside the first one. -/
theorem Apart.sub_left {a n b l a' n' : Nat} (h : Apart a n b l) (hlo : a ≤ a')
    (hhi : a' + n' ≤ a + n) : Apart a' n' b l := by
  intro i hi j hj he
  exact h (a' - a + i) (by omega) j hj (by omega)

/-- A range that ends before another begins is apart from it. -/
theorem apart_of_le {a n b l : Nat} (h : a + n ≤ b) : Apart a n b l := by
  intro i hi j hj
  omega

/-! ## reading -/

@[simp] theorem length_readBytes (m : Mem) (a n : Nat) : (readBytes m a n).length = n := by
  simp [readBytes]

@[simp] theorem getElem_readBytes (m : Mem) (a n i : Nat) (h : i < (readBytes m a n).length) :
    (readBytes m a n)[i] = m (a + i) := by
  simp [readBytes]

/-- Two ranges hold the same bytes when they agree address by address. -/
theorem readBytes_congr {m m' : Mem} {a b n : Nat} (h : ∀ i < n, m (a + i) = m' (b + i)) :
    readBytes m a n = readBytes m' b n := by
  apply List.ext_getElem (by simp)
  intro i hi _
  rw [getElem_readBytes, getElem_readBytes]
  exact h i (by simpa using hi)

/-- Equal ranges agree address by address. -/
theorem eq_of_readBytes_eq {m m' : Mem} {a b n : Nat} (h : readBytes m a n = readBytes m' b n)
    {i : Nat} (hi : i < n) : m (a + i) = m' (b + i) := by
  have hg := congrArg (fun l => l[i]?) h
  simpa [readBytes, hi] using hg

/-- Equal ranges are equal on each range inside. -/
theorem readBytes_sub {m m' : Mem} {a b n k l : Nat} (h : readBytes m a n = readBytes m' b n)
    (hk : k + l ≤ n) : readBytes m (a + k) l = readBytes m' (b + k) l := by
  refine readBytes_congr fun i hi => ?_
  have hg := eq_of_readBytes_eq h (show k + i < n by omega)
  rwa [← Nat.add_assoc, ← Nat.add_assoc] at hg

/-- A range splits at any point. -/
theorem readBytes_add (m : Mem) (a n k : Nat) :
    readBytes m a (n + k) = readBytes m a n ++ readBytes m (a + n) k := by
  apply List.ext_getElem (by simp)
  intro i hi _
  rw [getElem_readBytes, List.getElem_append]
  split
  · rw [getElem_readBytes]
  · next h =>
    rw [length_readBytes] at h
    rw [getElem_readBytes, length_readBytes]
    congr 1
    omega

/-- The front of a range. -/
theorem take_readBytes (m : Mem) {a n k : Nat} (h : k ≤ n) :
    (readBytes m a n).take k = readBytes m a k := by
  have hn : n = k + (n - k) := by omega
  rw [hn, readBytes_add, List.take_left' (length_readBytes _ _ _)]

/-- The range behind the first `k` bytes. -/
theorem drop_readBytes (m : Mem) {a n k : Nat} (h : k ≤ n) :
    (readBytes m a n).drop k = readBytes m (a + k) (n - k) := by
  conv_lhs => rw [show n = k + (n - k) by omega, readBytes_add]
  rw [List.drop_left' (length_readBytes _ _ _)]

/-- A piece of a range is a range. -/
theorem piece_readBytes (m : Mem) {a n k i : Nat} (h : k * i + k ≤ n) :
    piece k i (readBytes m a n) = readBytes m (a + k * i) k := by
  rw [piece, drop_readBytes m (by omega), take_readBytes m (by omega)]

/-! ## writing -/

theorem writeBytes_apply_add {m : Mem} {a i : Nat} {bs : List UInt8} (h : i < bs.length) :
    writeBytes m a bs (a + i) = bs[i] := by
  have hc : a ≤ a + i ∧ a + i - a < bs.length := by omega
  rw [writeBytes, dif_pos hc]
  congr 1
  omega

theorem writeBytes_apply_of_out {m : Mem} {a i : Nat} {bs : List UInt8}
    (h : i < a ∨ a + bs.length ≤ i) : writeBytes m a bs i = m i := by
  rw [writeBytes, dif_neg (by omega)]

@[simp] theorem writeBytes_nil (m : Mem) (a : Nat) : writeBytes m a [] = m := by
  funext i
  rw [writeBytes, dif_neg (by simp)]

/-- What was written is read back. -/
@[simp] theorem readBytes_writeBytes (m : Mem) (a : Nat) (bs : List UInt8) :
    readBytes (writeBytes m a bs) a bs.length = bs := by
  apply List.ext_getElem (by simp)
  intro i _ hi
  rw [getElem_readBytes, writeBytes_apply_add hi]

/-- A write is not seen outside its range. -/
theorem writeBytes_apply_of_apart {m : Mem} {a b n i : Nat} {bs : List UInt8}
    (h : Apart a bs.length b n) (hi : i < n) : writeBytes m a bs (b + i) = m (b + i) := by
  apply writeBytes_apply_of_out
  by_contra hc
  exact h (b + i - a) (by omega) i hi (by omega)

/-- A range apart from a write reads as before. -/
theorem readBytes_writeBytes_of_apart {m : Mem} {a b n : Nat} {bs : List UInt8}
    (h : Apart a bs.length b n) : readBytes (writeBytes m a bs) b n = readBytes m b n :=
  readBytes_congr fun _ hi => writeBytes_apply_of_apart h hi

/-- A byte written at a position of a range is the entry there. -/
theorem readBytes_writeBytes_singleton (m : Mem) (a n i : Nat) (b : UInt8) :
    readBytes (writeBytes m (a + i) [b]) a n = (readBytes m a n).set i b := by
  apply List.ext_getElem (by simp)
  intro j hj _
  rw [List.getElem_set, getElem_readBytes, getElem_readBytes]
  by_cases hij : i = j
  · subst hij
    rw [if_pos rfl]
    exact writeBytes_apply_add (i := 0) (by simp)
  · rw [if_neg hij, writeBytes_apply_of_out (by simp; omega)]

/-- Writing two adjacent pieces is one write of their concatenation. -/
theorem writeBytes_append (m : Mem) (a : Nat) (xs ys : List UInt8) :
    writeBytes (writeBytes m a xs) (a + xs.length) ys = writeBytes m a (xs ++ ys) := by
  funext i
  by_cases hlo : i < a
  · rw [writeBytes_apply_of_out (by omega), writeBytes_apply_of_out (by omega),
      writeBytes_apply_of_out (by omega)]
  · obtain ⟨j, rfl⟩ : ∃ j, i = a + j := ⟨i - a, by omega⟩
    by_cases hx : j < xs.length
    · rw [writeBytes_apply_of_out (by omega), writeBytes_apply_add hx,
        writeBytes_apply_add (by simp; omega), List.getElem_append_left hx]
    · by_cases hy : j < xs.length + ys.length
      · obtain ⟨k, rfl⟩ : ∃ k, j = xs.length + k := ⟨j - xs.length, by omega⟩
        rw [← Nat.add_assoc, writeBytes_apply_add (by omega), Nat.add_assoc,
          writeBytes_apply_add (by simp; omega), List.getElem_append_right (by omega)]
        congr 1
        omega
      · rw [writeBytes_apply_of_out (by omega), writeBytes_apply_of_out (by omega),
          writeBytes_apply_of_out (by simp; omega)]

end Lib
