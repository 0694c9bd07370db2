import Mathlib.Algebra.Ring.Nat
import Mathlib.Tactic.Common

/-!
# LvInterop.Lib.Bytes

Byte strings of fixed width: the little- and big-endian digits of a natural
number, and lists built from pieces of one width (the layout of an array in
memory).

Everything here is a fact about lists of bytes; no module of the development
redoes this arithmetic.
-/

namespace Lib

/-! ## little-endian digits -/

/-- The `k` low base-256 digits of `n`, least significant first. -/
def toLE : Nat → Nat → List UInt8
  | 0, _ => []
  | k + 1, n => UInt8.ofNat n :: toLE k (n / 256)

/-- The number whose base-256 digits are `bs`, least significant first. -/
def ofLE : List UInt8 → Nat
  | [] => 0
  | b :: bs => b.toNat + 256 * ofLE bs

@[simp] theorem length_toLE (k n : Nat) : (toLE k n).length = k := by
  induction k generalizing n with
  | zero => rfl
  | succ k ih => simp [toLE, ih]

/-- Reading back `k` digits keeps exactly the low `k` digits. -/
theorem ofLE_toLE (k n : Nat) : ofLE (toLE k n) = n % 256 ^ k := by
  induction k generalizing n with
  | zero => simp [toLE, ofLE, Nat.mod_one]
  | succ k ih =>
      have hb : (UInt8.ofNat n).toNat = n % 256 := by simp
      rw [toLE, ofLE, ih, hb, Nat.pow_succ, Nat.mul_comm (256 ^ k) 256, Nat.mod_mul]

/-- A number that fits `k` digits survives the round trip. -/
theorem ofLE_toLE_of_lt {k n : Nat} (h : n < 256 ^ k) : ofLE (toLE k n) = n := by
  rw [ofLE_toLE, Nat.mod_eq_of_lt h]

/-- `bs` is the digit string of its own value. -/
theorem toLE_ofLE (bs : List UInt8) : toLE bs.length (ofLE bs) = bs := by
  induction bs with
  | nil => rfl
  | cons b bs ih =>
      have hb : b.toNat < 256 := b.toNat_lt
      have hlow : UInt8.ofNat (b.toNat + 256 * ofLE bs) = b := by
        apply UInt8.toNat_inj.mp
        rw [UInt8.toNat_ofNat']
        omega
      have hhigh : (b.toNat + 256 * ofLE bs) / 256 = ofLE bs := by omega
      rw [List.length_cons, ofLE, toLE, hlow, hhigh, ih]

/-- The value of `k` digits is below `256 ^ k`. -/
theorem ofLE_lt (bs : List UInt8) : ofLE bs < 256 ^ bs.length := by
  induction bs with
  | nil => simp [ofLE]
  | cons b bs ih =>
      have hb : b.toNat < 256 := b.toNat_lt
      rw [ofLE, List.length_cons, Nat.pow_succ]
      omega

/-- Only the value modulo `256 ^ k` matters to `k` digits. -/
theorem toLE_mod (k n : Nat) : toLE k (n % 256 ^ k) = toLE k n := by
  have h := toLE_ofLE (toLE k n)
  rwa [length_toLE, ofLE_toLE] at h

/-- The digits split at any position. -/
theorem toLE_add (j k n : Nat) : toLE (j + k) n = toLE j n ++ toLE k (n / 256 ^ j) := by
  induction j generalizing n with
  | zero => simp [toLE]
  | succ j ih =>
      rw [Nat.succ_add, toLE, ih, toLE, List.cons_append, Nat.div_div_eq_div_mul, Nat.pow_succ,
        Nat.mul_comm 256]

/-! ## big-endian digits -/

/-- The `k` low base-256 digits of `n`, most significant first. -/
def toBE (k n : Nat) : List UInt8 := (toLE k n).reverse

/-- The number whose base-256 digits are `bs`, most significant first. -/
def ofBE (bs : List UInt8) : Nat := ofLE bs.reverse

@[simp] theorem length_toBE (k n : Nat) : (toBE k n).length = k := by simp [toBE]

/-! ## 32-bit words -/

/-- An `i32` in memory, little endian. -/
def i32ToBytes (v : Int32) : List UInt8 := toLE 4 v.toBitVec.toNat

/-- The `i32` found in four bytes. -/
def i32OfBytes (bs : List UInt8) : Int32 := Int32.ofBitVec (BitVec.ofNat 32 (ofLE bs))

@[simp] theorem length_i32ToBytes (v : Int32) : (i32ToBytes v).length = 4 := length_toLE _ _

@[simp] theorem i32OfBytes_i32ToBytes (v : Int32) : i32OfBytes (i32ToBytes v) = v := by
  have hlt : v.toBitVec.toNat < 256 ^ 4 := v.toBitVec.isLt
  rw [i32OfBytes, i32ToBytes, ofLE_toLE_of_lt hlt, BitVec.ofNat_toNat, BitVec.setWidth_eq,
    Int32.ofBitVec_toBitVec]

/-! ## lists of pieces of one width -/

/-- Piece `i` of a list cut into pieces of width `k`. -/
def piece (k i : Nat) (l : List α) : List α := (l.drop (k * i)).take k

/-- An element of a piece is an element of the list. -/
theorem getElem?_piece {k i r : Nat} {l : List α} (h : r < k) : (piece k i l)[r]? = l[k * i + r]? := by
  rw [piece, List.getElem?_take_of_lt h, List.getElem?_drop]

/-- Pieces of one width add up. -/
theorem length_flatMap_of_length {f : α → List β} {k : Nat} (h : ∀ a, (f a).length = k)
    (l : List α) : (l.flatMap f).length = k * l.length := by
  induction l with
  | nil => rfl
  | cons a l ih =>
      rw [List.flatMap_cons, List.length_append, h, ih, List.length_cons, Nat.mul_succ]
      omega

/-- Piece `i` of a flattened list is the image of its element `i`. -/
theorem piece_flatMap {f : α → List β} {k : Nat} (h : ∀ a, (f a).length = k)
    (l : List α) (i : Nat) (hi : i < l.length) : piece k i (l.flatMap f) = f l[i] := by
  induction l generalizing i with
  | nil => simp at hi
  | cons a l ih =>
      cases i with
      | zero => simp [piece, h a]
      | succ i =>
          have hi' : i < l.length := by simpa using hi
          have hdrop : ((a :: l).flatMap f).drop (k * (i + 1)) = (l.flatMap f).drop (k * i) := by
            rw [List.flatMap_cons, Nat.mul_succ, Nat.add_comm, ← List.drop_drop]
            congr 1
            rw [List.drop_append_of_le_length (by rw [h]), ← h a, List.drop_length,
              List.nil_append]
          rw [piece, hdrop]
          exact ih i hi'

end Lib
