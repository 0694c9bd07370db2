import LvInterop.Lib.Rounding

/-!
# LvInterop.F64

The `f64` of the source, as the rational number it denotes: arithmetic is
exact arithmetic rounded to 53 bits, casts to integers truncate and saturate.

Infinities and NaN are left out, and the exponent is not bounded: between
times and fractions of a second nothing comes near either end of its range.
-/

namespace LvInterop

open Lib

/-- A finite `f64`. -/
structure F64 where
  val : ℚ
  representable : Representable 53 val

namespace F64

/-- The `f64` nearest to a rational. -/
def round (q : ℚ) : F64 := ⟨roundTo 53 q, representable_roundTo (by decide) q⟩

/-- `as f64` on an integer. -/
def ofInt (n : ℤ) : F64 := round n

instance : Add F64 := ⟨fun x y => round (x.val + y.val)⟩
instance : Sub F64 := ⟨fun x y => round (x.val - y.val)⟩
instance : Mul F64 := ⟨fun x y => round (x.val * y.val)⟩
instance : Div F64 := ⟨fun x y => round (x.val / y.val)⟩

/-- the remainder has the sign of the dividend -/
instance : Mod F64 := ⟨fun x y => round (x.val - y.val * trunc (x.val / y.val))⟩

/-- Clamp to a range. -/
def saturate (lo hi n : ℤ) : ℤ := max lo (min n hi)

/-- `as i64`. -/
def toI64 (self : F64) : Int64 := .ofInt (saturate (-2 ^ 63) (2 ^ 63 - 1) (trunc self.val))

/-- `as u64`. -/
def toU64 (self : F64) : UInt64 := .ofNat (saturate 0 (2 ^ 64 - 1) (trunc self.val)).toNat

/-- `as u32`. -/
def toU32 (self : F64) : UInt32 := .ofNat (saturate 0 (2 ^ 32 - 1) (trunc self.val)).toNat

/-! ## arithmetic -/

theorem ext {x y : F64} (h : x.val = y.val) : x = y := by
  cases x
  cases y
  cases h
  rfl

@[simp] theorem val_round (q : ℚ) : (round q).val = roundTo 53 q := rfl
@[simp] theorem val_add (x y : F64) : (x + y).val = roundTo 53 (x.val + y.val) := rfl
@[simp] theorem val_sub (x y : F64) : (x - y).val = roundTo 53 (x.val - y.val) := rfl
@[simp] theorem val_mul (x y : F64) : (x * y).val = roundTo 53 (x.val * y.val) := rfl
@[simp] theorem val_div (x y : F64) : (x / y).val = roundTo 53 (x.val / y.val) := rfl
@[simp] theorem val_mod (x y : F64) :
    (x % y).val = roundTo 53 (x.val - y.val * trunc (x.val / y.val)) := rfl
@[simp] theorem val_ofInt (n : ℤ) : (ofInt n).val = roundTo 53 n := rfl

/-- What 53 bits hold is not rounded. -/
theorem roundTo_eq {q : ℚ} (h : Representable 53 q) : roundTo 53 q = q :=
  roundTo_of_representable (by decide) h

/-- Integers of 53 bits are not rounded. -/
theorem roundTo_intCast {n : ℤ} (h : |n| ≤ 2 ^ 53) : roundTo 53 n = n :=
  roundTo_eq (representable_intCast (by decide) h)

theorem roundTo_natCast {n : ℕ} (h : n ≤ 2 ^ 53) : roundTo 53 n = n :=
  roundTo_natCast_of_le (by decide) h

/-! ## casts -/

theorem saturate_of_mem {lo hi n : ℤ} (hlo : lo ≤ n) (hhi : n ≤ hi) : saturate lo hi n = n := by
  rw [saturate, min_eq_left hhi, max_eq_right hlo]

theorem saturate_of_le {lo hi n : ℤ} (hlo : n ≤ lo) (hhi : n ≤ hi) : saturate lo hi n = lo := by
  rw [saturate, min_eq_left hhi, max_eq_left hlo]

/-- In range `as i64` is the truncation. -/
theorem toInt_toI64 {x : F64} (hlo : -2 ^ 63 ≤ trunc x.val) (hhi : trunc x.val < 2 ^ 63) :
    x.toI64.toInt = trunc x.val := by
  rw [toI64, saturate_of_mem hlo (by omega), Int64.toInt_ofInt_of_le hlo hhi]

/-- In range `as u64` is the truncation. -/
theorem toNat_toU64 {x : F64} (hlo : 0 ≤ trunc x.val) (hhi : trunc x.val < 2 ^ 64) :
    (x.toU64.toNat : ℤ) = trunc x.val := by
  have hlt : (trunc x.val).toNat < 2 ^ 64 := by omega
  rw [toU64, saturate_of_mem hlo (by omega), UInt64.toNat_ofNat_of_lt' hlt]
  exact Int.toNat_of_nonneg hlo

/-- Below the range `as u64` is zero. -/
theorem toU64_of_nonpos {x : F64} (h : trunc x.val ≤ 0) : x.toU64 = 0 := by
  rw [toU64, saturate_of_le h (by omega)]
  rfl

/-- In range `as u32` is the truncation. -/
theorem toNat_toU32 {x : F64} (hlo : 0 ≤ trunc x.val) (hhi : trunc x.val < 2 ^ 32) :
    (x.toU32.toNat : ℤ) = trunc x.val := by
  have hlt : (trunc x.val).toNat < 2 ^ 32 := by omega
  rw [toU32, saturate_of_mem hlo (by omega), UInt32.toNat_ofNat_of_lt' hlt]
  exact Int.toNat_of_nonneg hlo

end F64

end LvInterop
