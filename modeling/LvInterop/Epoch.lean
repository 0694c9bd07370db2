import LvInterop.F64
import LvInterop.TimeOrder

/-!
# LvInterop.Epoch

Timestamps as `f64` seconds since 1904 (`types/timestamp.rs`).

`from_lv_epoch` takes a number apart into whole seconds and a remainder.  The
cast of the seconds truncates towards zero and the remainder has the sign of
the number, so before 1904 the parts are those of a floor only where there is
no remainder (`fromLvEpoch_instantOf_iff`).
-/

namespace LvInterop

open Lib

/-- The Unix epoch in seconds since 1904. -/
def UNIX_EPOCH_IN_LV_SECONDS_I64 : Int64 := 2082844800

def UNIX_EPOCH_IN_LV_SECONDS_F64 : F64 := .ofInt UNIX_EPOCH_IN_LV_SECONDS_I64.toInt

namespace LVTime

/-- `LVTime::to_parts`. -/
def toParts (self : LVTime) : Int64 × UInt64 := (self.seconds, self.fractions)

/-- `LVTime::sub_seconds`. -/
def subSeconds (self : LVTime) : F64 :=
  let fractional := self.toParts.2
  .ofInt fractional.toNat / .ofInt 0xFFFFFFFFFFFFFFFF

/-- `LVTime::from_lv_epoch`. -/
def fromLvEpoch (seconds : F64) : LVTime :=
  let (seconds, fractions) := (seconds / .ofInt 1, seconds % .ofInt 1)
  let integer_fractions := (fractions * .ofInt 0xFFFFFFFFFFFFFFFF).toU64
  fromParts seconds.toI64 integer_fractions

/-- `LVTime::to_lv_epoch`. -/
def toLvEpoch (self : LVTime) : F64 := .ofInt self.seconds.toInt + self.subSeconds

/-- `LVTime::to_unix_epoch`. -/
def toUnixEpoch (self : LVTime) : F64 :=
  let lv_epoch := self.toLvEpoch
  lv_epoch - UNIX_EPOCH_IN_LV_SECONDS_F64

/-- `LVTime::from_unix_epoch`. -/
def fromUnixEpoch (seconds : F64) : LVTime :=
  let lv_epoch := seconds + UNIX_EPOCH_IN_LV_SECONDS_F64
  fromLvEpoch lv_epoch

/-! ## the steps of the conversions -/

/-- The scale of the fractions: 2^64 - 1 is not an `f64`, and 2^64 is. -/
theorem roundTo_u64Max : roundTo 53 (0xFFFFFFFFFFFFFFFF : ℤ) = 2 ^ (64 : ℤ) := by
  refine roundTo_eq_of_close (k := 63) (by decide) ?_ ?_ ((onGrid_zpow 64).mono (by decide)) ?_
  · norm_num
  · norm_num
  · norm_num

/-- The only rounding in `sub_seconds` is that of the fractions. -/
theorem val_subSeconds (t : LVTime) :
    t.subSeconds.val = roundTo 53 t.fractions.toNat / 2 ^ (64 : ℤ) := by
  have hrep := (representable_roundTo (p := 53) (by decide) t.fractions.toNat).mul_zpow (-64)
  rw [zpow_neg, ← div_eq_mul_inv] at hrep
  simp only [subSeconds, toParts, F64.val_div, F64.val_ofInt, roundTo_u64Max, Int.cast_natCast]
  exact F64.roundTo_eq hrep

/-- Dividing by one changes nothing. -/
theorem val_div_one (x : F64) : (x / .ofInt 1).val = x.val := by
  have hone : roundTo 53 (1 : ℤ) = (1 : ℤ) := F64.roundTo_intCast (by decide)
  rw [F64.val_div, F64.val_ofInt, hone, Int.cast_one, div_one, F64.roundTo_eq x.representable]

/-- The remainder is what truncation leaves. -/
theorem val_mod_one (x : F64) : (x % .ofInt 1).val = x.val - trunc x.val := by
  have hone : roundTo 53 (1 : ℤ) = (1 : ℤ) := F64.roundTo_intCast (by decide)
  rw [F64.val_mod, F64.val_ofInt, hone, Int.cast_one, div_one, one_mul,
    F64.roundTo_eq x.representable.trunc_parts.2]

/-- The seconds are truncated. -/
theorem toInt_seconds_fromLvEpoch {x : F64} (hlo : -2 ^ 63 ≤ x.val) (hhi : x.val < 2 ^ 63) :
    (fromLvEpoch x).seconds.toInt = trunc x.val := by
  have hrange : -2 ^ 63 ≤ trunc x.val ∧ trunc x.val < 2 ^ 63 := by
    obtain ⟨-, ht, hle, -⟩ | ⟨-, ht, hle, -⟩ := trunc_bounds x.val
    · have hlt : (trunc x.val : ℚ) < 2 ^ 63 := by linarith
      exact ⟨by omega, by exact_mod_cast hlt⟩
    · have hge : (-2 ^ 63 : ℚ) ≤ trunc x.val := by linarith
      exact ⟨by exact_mod_cast hge, by omega⟩
  rw [← val_div_one x] at hrange ⊢
  exact F64.toInt_toI64 hrange.1 hrange.2

/-- The fractions are the remainder, scaled and cast. -/
theorem fractions_fromLvEpoch (x : F64) : ∃ y : F64, y.val = (x.val - trunc x.val) * 2 ^ (64 : ℤ) ∧
    (fromLvEpoch x).fractions = y.toU64 := by
  refine ⟨x % .ofInt 1 * .ofInt 0xFFFFFFFFFFFFFFFF, ?_, by simp only [fromLvEpoch, fromParts]⟩
  rw [F64.val_mul, val_mod_one, F64.val_ofInt, roundTo_u64Max,
    F64.roundTo_eq (x.representable.trunc_parts.2.mul_zpow 64)]

/-- From 1904 on the fractions are a floor. -/
theorem fractions_of_nonneg {x : F64} (h : 0 ≤ x.val) :
    ((fromLvEpoch x).fractions.toNat : ℤ) = ⌊(x.val - trunc x.val) * 2 ^ (64 : ℤ)⌋ := by
  obtain ⟨y, hy, heq⟩ := fractions_fromLvEpoch x
  obtain ⟨-, -, hle, hlt⟩ | ⟨hneg, -⟩ := trunc_bounds x.val
  · have hpos : 0 ≤ y.val := by
      rw [hy]
      exact mul_nonneg (by linarith) (two_zpow_pos 64).le
    have hbound : y.val < 2 ^ (64 : ℤ) := by
      rw [hy]
      have := mul_lt_mul_of_pos_right (show x.val - trunc x.val < 1 by linarith) (two_zpow_pos 64)
      linarith
    have hfloor : ⌊y.val⌋ < 2 ^ 64 := by
      rw [Int.floor_lt]
      exact_mod_cast hbound
    rw [heq, F64.toNat_toU64, trunc_of_nonneg hpos, hy]
    · rw [trunc_of_nonneg hpos]
      exact Int.floor_nonneg.mpr hpos
    · rw [trunc_of_nonneg hpos]
      exact hfloor
  · exact absurd h (not_le.mpr hneg)

/-- Before 1904 there are none: a negative number is cast to zero. -/
theorem fractions_of_neg {x : F64} (h : x.val < 0) : (fromLvEpoch x).fractions = 0 := by
  obtain ⟨y, hy, heq⟩ := fractions_fromLvEpoch x
  obtain ⟨hpos, -⟩ | ⟨-, -, hle, -⟩ := trunc_bounds x.val
  · exact absurd h (not_lt.mpr hpos)
  · have hneg : y.val ≤ 0 := by
      rw [hy]
      exact mul_nonpos_of_nonpos_of_nonneg (by linarith) (two_zpow_pos 64).le
    rw [heq]
    refine F64.toU64_of_nonpos ?_
    obtain ⟨-, -, htle, -⟩ | ⟨-, ht, -⟩ := trunc_bounds y.val
    · exact_mod_cast htle.trans hneg
    · exact ht

/-! ## the instant of a number -/

/-- `t` is the last instant not after `x` seconds.  A multiple of the
resolution is its own instant and is read back. -/
structure InstantOf (x : F64) (t : LVTime) : Prop where
  le : (t.seconds.toInt : ℚ) + t.fractions.toNat / 2 ^ 64 ≤ x.val
  lt : x.val < t.seconds.toInt + (t.fractions.toNat + 1) / 2 ^ 64
  exact : OnGrid (-64) x.val → t.value = x.val ∧ t.toLvEpoch = x

/-- The parts of a number that lost nothing are read back as it. -/
theorem toLvEpoch_of_parts {x : F64} {t : LVTime} (hs : t.seconds.toInt = trunc x.val)
    (hf : (t.fractions.toNat : ℚ) = (x.val - trunc x.val) * 2 ^ (64 : ℤ)) : t.toLvEpoch = x := by
  obtain ⟨hint, hrem⟩ := x.representable.trunc_parts
  have hsub : t.subSeconds.val = x.val - trunc x.val := by
    rw [val_subSeconds, hf, F64.roundTo_eq (hrem.mul_zpow 64)]
    exact mul_div_cancel_right₀ _ (by norm_num)
  apply F64.ext
  rw [toLvEpoch, F64.val_add, hsub, F64.val_ofInt, hs, F64.roundTo_eq hint, add_sub_cancel,
    F64.roundTo_eq x.representable]

/-- Truncated seconds and the floor of the scaled remainder make an instant. -/
theorem instantOf_of_parts {x : F64} {t : LVTime} (hs : t.seconds.toInt = trunc x.val)
    (hle : (t.fractions.toNat : ℚ) ≤ (x.val - trunc x.val) * 2 ^ (64 : ℤ))
    (hlt : (x.val - trunc x.val) * 2 ^ (64 : ℤ) < t.fractions.toNat + 1) : InstantOf x t := by
  have hpow : (2 : ℚ) ^ (64 : ℤ) = 2 ^ 64 := by norm_num
  have hpos : (0 : ℚ) < 2 ^ 64 := by norm_num
  refine ⟨?_, ?_, fun hgrid => ?_⟩
  · have hdiv := (div_le_iff₀ hpos).mpr (hpow ▸ hle)
    rw [hs]
    linarith
  · have hdiv := (lt_div_iff₀ hpos).mpr (hpow ▸ hlt)
    rw [hs]
    linarith
  · -- a multiple of the resolution leaves a whole number of fractions
    obtain ⟨m, hm⟩ := hgrid.sub (onGrid_intCast (by decide) (trunc x.val))
    have hscaled : (x.val - trunc x.val) * 2 ^ (64 : ℤ) = m := by
      rw [hm, mul_assoc, ← two_zpow_add]
      norm_num
    rw [hscaled] at hle hlt
    have hf : (t.fractions.toNat : ℤ) = m := by
      have h₁ : (t.fractions.toNat : ℤ) ≤ m := by exact_mod_cast hle
      have h₂ : m < (t.fractions.toNat : ℤ) + 1 := by exact_mod_cast hlt
      omega
    have hfq : (t.fractions.toNat : ℚ) = (x.val - trunc x.val) * 2 ^ (64 : ℤ) := by
      rw [hscaled, ← hf, Int.cast_natCast]
    refine ⟨?_, toLvEpoch_of_parts hs hfq⟩
    rw [value, hs, hfq, hpow, mul_div_cancel_right₀ _ hpos.ne', add_sub_cancel]

/-- **`from_lv_epoch` is the instant of its argument exactly** for times from
1904 on and for whole seconds. -/
theorem fromLvEpoch_instantOf_iff {x : F64} (hlo : -2 ^ 63 ≤ x.val) (hhi : x.val < 2 ^ 63) :
    InstantOf x (fromLvEpoch x) ↔ 0 ≤ x.val ∨ ∃ n : ℤ, x.val = n := by
  have hs := toInt_seconds_fromLvEpoch hlo hhi
  by_cases hneg : x.val < 0
  · have hf := fractions_of_neg hneg
    constructor
    · intro h
      have hle := h.le
      obtain ⟨hpos, -⟩ | ⟨-, -, htrunc, -⟩ := trunc_bounds x.val
      · exact .inl hpos
      · rw [hs, hf] at hle
        exact .inr ⟨trunc x.val, le_antisymm htrunc (by simpa using hle)⟩
    · rintro (hpos | ⟨n, hn⟩)
      · exact absurd hneg (not_lt.mpr hpos)
      · have hrem : x.val - trunc x.val = 0 := by rw [hn, trunc_intCast, sub_self]
        exact instantOf_of_parts hs (by simp [hf, hrem]) (by simp [hf, hrem])
  · have hpos := not_lt.mp hneg
    have hf := fractions_of_nonneg hpos
    refine iff_of_true (instantOf_of_parts hs ?_ ?_) (.inl hpos)
    · exact_mod_cast hf ▸ Int.floor_le ((x.val - trunc x.val) * 2 ^ (64 : ℤ))
    · exact_mod_cast hf ▸ Int.lt_floor_add_one ((x.val - trunc x.val) * 2 ^ (64 : ℤ))

/-- `n` half seconds. -/
def halfSeconds (n : ℤ) (h : |n| ≤ 2 ^ 53) : F64 :=
  ⟨n * 2 ^ (-1 : ℤ), (representable_intCast (by decide) h).mul_zpow (-1)⟩

theorem fromLvEpoch_instantOf_halfSeconds :
    InstantOf (halfSeconds 5 (by decide)) (fromLvEpoch (halfSeconds 5 (by decide))) := by
  have hval : (halfSeconds 5 (by decide)).val = 5 / 2 := by norm_num [halfSeconds]
  refine (fromLvEpoch_instantOf_iff ?_ ?_).mpr (.inl ?_) <;> rw [hval] <;> norm_num

/-- Half a second before 1904 becomes 1904. -/
theorem not_fromLvEpoch_instantOf :
    ¬ InstantOf (halfSeconds (-1) (by decide)) (fromLvEpoch (halfSeconds (-1) (by decide))) := by
  have hval : (halfSeconds (-1) (by decide)).val = -1 / 2 := by norm_num [halfSeconds]
  have hneg : (halfSeconds (-1) (by decide)).val < 0 := by rw [hval]; norm_num
  have hs := toInt_seconds_fromLvEpoch (x := halfSeconds (-1) (by decide))
    (by rw [hval]; norm_num) (by rw [hval]; norm_num)
  have htrunc : trunc (halfSeconds (-1) (by decide)).val = 0 := by
    rw [trunc_of_neg hneg, hval]
    norm_num
  intro h
  have hle := h.le
  rw [hs, htrunc, fractions_of_neg hneg, hval] at hle
  norm_num at hle

end LVTime

end LvInterop
