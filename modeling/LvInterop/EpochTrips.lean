import LvInterop.Epoch
import LvInterop.Lib.RoundingOrder

/-!
# LvInterop.EpochTrips

Timestamps and `f64` seconds, there and back (`types/timestamp.rs`).

The seconds of a timestamp never have bits below its resolution
(`onGrid_toLvEpoch`), so the way back loses nothing from 1904 on: what a trip
may lose it loses on the way out, and a second trip changes nothing more
(`trip_iff`).  The way back keeps the order of time, and so does the way out
but for half of one second far in the past (`keepsOrder_iff`).
-/

namespace LvInterop

open Lib

namespace LVTime

/-! ## the range of the way out -/

theorem representable_two_pow (k : ℕ) : Representable 53 (2 ^ k) := by
  exact_mod_cast representable_zpow (p := 53) (by decide) k

/-- `sub_seconds` is between no and one whole second. -/
theorem subSeconds_mem (t : LVTime) : 0 ≤ t.subSeconds.val ∧ t.subSeconds.val ≤ 1 := by
  have hf : (t.fractions.toNat : ℚ) ≤ 2 ^ (64 : ℤ) := by
    have := t.fractions.toNat_lt.le
    exact_mod_cast this
  have hnonneg : (0 : ℚ) ≤ t.fractions.toNat := Nat.cast_nonneg _
  have hlo := le_roundTo (p := 53) (by decide) (representable_zero 53) hnonneg
  have hhi := roundTo_le (p := 53) (by decide) (representable_zpow (by decide) 64) hf
  rw [val_subSeconds]
  exact ⟨div_nonneg hlo (two_zpow_pos 64).le, div_le_one_of_le₀ hhi (two_zpow_pos 64).le⟩

theorem val_toLvEpoch (t : LVTime) :
    t.toLvEpoch.val = roundTo 53 (roundTo 53 t.seconds.toInt + t.subSeconds.val) := by
  rw [toLvEpoch, F64.val_add, F64.val_ofInt]

/-- Nothing is below the resolution of a timestamp. -/
theorem onGrid_toLvEpoch (t : LVTime) : OnGrid (-64) t.toLvEpoch.val := by
  have hint : OnGrid (-64) (roundTo 53 t.seconds.toInt) :=
    (onGrid_intCast (by decide) t.seconds.toInt).roundTo (by decide)
  have hfrac : OnGrid 0 (roundTo 53 t.fractions.toNat) := by
    have hgrid := onGrid_intCast (le_refl 0) (t.fractions.toNat : ℤ)
    rw [Int.cast_natCast] at hgrid
    exact hgrid.roundTo (by decide)
  obtain ⟨m, hm⟩ := hfrac
  have hsub : OnGrid (-64) t.subSeconds.val := by
    refine ⟨m, ?_⟩
    rw [val_subSeconds, hm, zpow_zero, mul_one, zpow_neg, div_eq_mul_inv]
  rw [val_toLvEpoch]
  exact (hint.add hsub).roundTo (by decide)

/-- The seconds of a timestamp fit the range of `i64`, or are just above it. -/
theorem toLvEpoch_mem (t : LVTime) : -2 ^ 63 ≤ t.toLvEpoch.val ∧ t.toLvEpoch.val ≤ 2 ^ 63 := by
  have hlo : (-2 ^ 63 : ℚ) ≤ t.seconds.toInt := by exact_mod_cast t.seconds.le_toInt
  have hhi : (t.seconds.toInt + 1 : ℚ) ≤ 2 ^ 63 := by exact_mod_cast t.seconds.toInt_lt
  have hpow := representable_two_pow 63
  obtain ⟨hd, hd'⟩ := t.subSeconds_mem
  rw [val_toLvEpoch]
  constructor
  · have hs := le_roundTo (by decide) hpow.neg hlo
    exact le_roundTo (by decide) hpow.neg (by linarith)
  · by_cases hneg : t.seconds.toInt < 0
    · have hs := roundTo_le (p := 53) (q := t.seconds.toInt) (by decide) (representable_zero 53)
        (by exact_mod_cast hneg.le)
      exact roundTo_le (by decide) hpow (by linarith)
    · have hnot : ¬ (t.seconds.toInt = -2 ^ 53 - 1 ∧ 1 / 2 < t.subSeconds.val) := by
        rintro ⟨hs, -⟩
        omega
      exact (roundTo_add_le (by decide) hd hd' hnot).trans (roundTo_le (by decide) hpow hhi)

/-! ## the way back -/

theorem eq_of_parts {a b : LVTime} (hs : a.seconds.toInt = b.seconds.toInt)
    (hf : a.fractions = b.fractions) : a = b := by
  rw [← instant_inj, instant, instant, hs, hf]

/-- Whole seconds have no fractions. -/
theorem fromLvEpoch_int {x : F64} {n : ℤ} (hx : x.val = n) (hlo : -2 ^ 63 ≤ n) (hhi : n < 2 ^ 63) :
    (fromLvEpoch x).seconds.toInt = n ∧ (fromLvEpoch x).fractions = 0 := by
  have htrunc : trunc x.val = n := by rw [hx, trunc_intCast]
  have hlo' : (-2 ^ 63 : ℚ) ≤ x.val := by
    rw [hx]
    exact_mod_cast hlo
  have hhi' : x.val < 2 ^ 63 := by
    rw [hx]
    exact_mod_cast hhi
  refine ⟨by rw [toInt_seconds_fromLvEpoch hlo' hhi', htrunc], ?_⟩
  obtain ⟨y, hy, heq⟩ := fractions_fromLvEpoch x
  rw [htrunc, hx, sub_self, zero_mul] at hy
  rw [heq]
  exact F64.toU64_of_nonpos (by simp [hy, trunc])

/-- The cast of the seconds saturates above the range. -/
theorem fromLvEpoch_top {x : F64} (hx : 2 ^ 63 ≤ x.val) :
    fromLvEpoch x = fromParts Int64.maxValue 0 := by
  have hint : ∃ n : ℤ, x.val = n := by
    obtain ⟨m, hm⟩ := (x.representable.onGrid (k := 63)
      (by rw [abs_of_nonneg (by linarith)]; exact_mod_cast hx)).mono (show (0 : ℤ) ≤ 63 + 1 - 53 by decide)
    exact ⟨m, by simpa using hm⟩
  obtain ⟨n, hn⟩ := hint
  have hle : 2 ^ 63 ≤ n := by
    rw [hn] at hx
    exact_mod_cast hx
  apply eq_of_parts
  · have hcast : trunc (x / .ofInt 1).val = n := by rw [val_div_one, hn, trunc_intCast]
    show (x / .ofInt 1).toI64.toInt = _
    rw [F64.toI64, hcast, F64.saturate, min_eq_right (by omega), max_eq_right (by omega)]
    rfl
  · obtain ⟨y, hy, heq⟩ := fractions_fromLvEpoch x
    rw [hn, trunc_intCast, sub_self, zero_mul] at hy
    rw [heq]
    exact F64.toU64_of_nonpos (by simp [hy, trunc])

/-- Seconds before 1904 lose their fractions. -/
theorem fromLvEpoch_neg {x : F64} (hlo : -2 ^ 63 ≤ x.val) (hx : x.val < 0) :
    (fromLvEpoch x).seconds.toInt = trunc x.val ∧ (fromLvEpoch x).fractions = 0 :=
  ⟨toInt_seconds_fromLvEpoch hlo (hx.trans (by positivity)), fractions_of_neg hx⟩

/-- From 1904 on nothing is lost of a multiple of the resolution. -/
theorem fromLvEpoch_nonneg {x : F64} (hx : 0 ≤ x.val) (hhi : x.val < 2 ^ 63)
    (hgrid : OnGrid (-64) x.val) :
    (fromLvEpoch x).value = x.val ∧ (fromLvEpoch x).toLvEpoch = x := by
  have hlo : (-2 ^ 63 : ℚ) ≤ x.val := by linarith [show (0 : ℚ) ≤ 2 ^ 63 by positivity]
  have hs := toInt_seconds_fromLvEpoch hlo hhi
  have hf := fractions_of_nonneg hx
  refine (instantOf_of_parts hs ?_ ?_).exact hgrid
  · exact_mod_cast hf ▸ Int.floor_le ((x.val - trunc x.val) * 2 ^ (64 : ℤ))
  · exact_mod_cast hf ▸ Int.lt_floor_add_one ((x.val - trunc x.val) * 2 ^ (64 : ℤ))

/-! ## the way out -/

/-- A timestamp without fractions goes out as its rounded seconds. -/
theorem toLvEpoch_of_fractions {t : LVTime} (h : t.fractions = 0) :
    t.toLvEpoch.val = roundTo 53 t.seconds.toInt := by
  have hsub : t.subSeconds.val = 0 := by
    rw [val_subSeconds, h]
    simp [roundTo_zero]
  rw [val_toLvEpoch, hsub, add_zero, F64.roundTo_eq (representable_roundTo (by decide) _)]

/-- The last whole second rounds up to the end of the range. -/
theorem toLvEpoch_top : (fromParts Int64.maxValue 0).toLvEpoch.val = 2 ^ 63 := by
  rw [toLvEpoch_of_fractions rfl]
  show roundTo 53 (Int64.maxValue.toInt : ℤ) = 2 ^ 63
  rw [Int64.toInt_maxValue]
  refine roundTo_eq_of_close (k := 62) (by decide) (by norm_num) (by norm_num) ?_ (by norm_num)
  exact_mod_cast (onGrid_zpow 63).mono (by decide)

/-- From 1904 on a time that is an `f64` goes out as itself. -/
theorem toLvEpoch_of_representable {t : LVTime} (hs : 0 ≤ t.seconds.toInt)
    (hrep : Representable 53 t.value) : t.toLvEpoch.val = t.value := by
  have hf : (t.fractions.toNat : ℚ) < 2 ^ 64 := by exact_mod_cast t.fractions.toNat_lt
  have hfrac : (0 : ℚ) ≤ t.fractions.toNat / 2 ^ 64 ∧ (t.fractions.toNat : ℚ) / 2 ^ 64 < 1 :=
    ⟨by positivity, (div_lt_one (by positivity)).mpr hf⟩
  have hsq : (0 : ℚ) ≤ t.seconds.toInt := by exact_mod_cast hs
  have htrunc : trunc t.value = t.seconds.toInt := by
    rw [trunc_of_nonneg (by rw [value]; linarith), Int.floor_eq_iff, value]
    exact ⟨by linarith, by linarith⟩
  have heq : t.toLvEpoch = ⟨t.value, hrep⟩ := by
    refine toLvEpoch_of_parts htrunc.symm ?_
    show (t.fractions.toNat : ℚ) = (t.value - trunc t.value) * 2 ^ (64 : ℤ)
    rw [htrunc, value, add_sub_cancel_left]
    exact (div_mul_cancel₀ _ (by norm_num)).symm
  rw [heq]

/-! ## there and back -/

/-- `x` comes back from a timestamp. -/
def Survives (x : F64) : Prop :=
  -2 ^ 63 ≤ x.val ∧ x.val ≤ 2 ^ 63 ∧ OnGrid (-64) x.val ∧ (0 ≤ x.val ∨ ∃ n : ℤ, x.val = n)

theorem survives_of_eq {x : F64} (h : (fromLvEpoch x).toLvEpoch = x) : Survives x := by
  obtain ⟨hlo, hhi⟩ := (fromLvEpoch x).toLvEpoch_mem
  have hgrid := (fromLvEpoch x).onGrid_toLvEpoch
  rw [h] at hlo hhi hgrid
  refine ⟨hlo, hhi, hgrid, ?_⟩
  by_cases hx : x.val < 0
  · obtain ⟨hs, hf⟩ := fromLvEpoch_neg hlo hx
    have hval := toLvEpoch_of_fractions hf
    rw [h, hs, F64.roundTo_eq x.representable.trunc_parts.1] at hval
    exact .inr ⟨_, hval⟩
  · exact .inl (not_lt.mp hx)

theorem Survives.eq {x : F64} (h : Survives x) : (fromLvEpoch x).toLvEpoch = x := by
  obtain ⟨hlo, hhi, hgrid, hx⟩ := h
  rcases lt_or_eq_of_le hhi with hlt | htop
  · rcases hx with hpos | ⟨n, hn⟩
    · exact (fromLvEpoch_nonneg hpos hlt hgrid).2
    · obtain ⟨hs, hf⟩ := fromLvEpoch_int hn (by rw [hn] at hlo; exact_mod_cast hlo)
        (by rw [hn] at hlt; exact_mod_cast hlt)
      apply F64.ext
      rw [toLvEpoch_of_fractions hf, hs, ← hn, F64.roundTo_eq x.representable]
  · apply F64.ext
    rw [fromLvEpoch_top htop.ge, toLvEpoch_top, htop]

/-- **From seconds and back**: from 1904 on the resolution of a timestamp
decides, before it only whole seconds survive.  The end of the range survives
too: it saturates, and the last whole second is rounded up to it. -/
theorem toLvEpoch_fromLvEpoch_iff (x : F64) : (fromLvEpoch x).toLvEpoch = x ↔ Survives x :=
  ⟨survives_of_eq, Survives.eq⟩

/-- What a trip gives the next trip keeps. -/
theorem trip_trip (t : LVTime) :
    fromLvEpoch (fromLvEpoch t.toLvEpoch).toLvEpoch = fromLvEpoch t.toLvEpoch := by
  obtain ⟨hlo, hhi⟩ := t.toLvEpoch_mem
  by_cases hx : t.toLvEpoch.val < 0
  · have hrange : -2 ^ 63 ≤ trunc t.toLvEpoch.val ∧ trunc t.toLvEpoch.val < 2 ^ 63 := by
      obtain ⟨hpos, -⟩ | ⟨-, hneg, hle, -⟩ := trunc_bounds t.toLvEpoch.val
      · exact absurd hx (not_lt.mpr hpos)
      · exact ⟨by exact_mod_cast hlo.trans hle, by omega⟩
    obtain ⟨hs, hf⟩ := fromLvEpoch_neg hlo hx
    have hval := toLvEpoch_of_fractions hf
    rw [hs, F64.roundTo_eq t.toLvEpoch.representable.trunc_parts.1] at hval
    obtain ⟨hs', hf'⟩ := fromLvEpoch_int hval hrange.1 hrange.2
    exact eq_of_parts (hs'.trans hs.symm) (hf'.trans hf.symm)
  · rw [Survives.eq ⟨hlo, hhi, t.onGrid_toLvEpoch, .inl (not_lt.mp hx)⟩]

/-- A timestamp that the `f64` seconds have room for: from 1904 on, or a whole
second.  The last whole second is rounded up on the way out, and the cast back
saturates. -/
def Fits (t : LVTime) : Prop :=
  (Representable 53 t.value ∧ (0 ≤ t.seconds.toInt ∨ t.fractions = 0)) ∨
    t = fromParts Int64.maxValue 0

/-- What comes back is the same time as the seconds, which only `Fits` has
room for. -/
theorem fits_of_trip {t : LVTime} (h : fromLvEpoch t.toLvEpoch = t) : Fits t := by
  obtain ⟨hlo, hhi⟩ := t.toLvEpoch_mem
  by_cases hx : t.toLvEpoch.val < 0
  · obtain ⟨hs, hf⟩ := fromLvEpoch_neg hlo hx
    have hrep := t.toLvEpoch.representable.trunc_parts.1
    rw [h] at hs hf
    refine .inl ⟨?_, .inr hf⟩
    rw [value, hf, hs]
    simpa using hrep
  rcases lt_or_eq_of_le hhi with hlt | htop
  · have hpos := not_lt.mp hx
    have hs := toInt_seconds_fromLvEpoch hlo hlt
    obtain ⟨hval, -⟩ := fromLvEpoch_nonneg hpos hlt t.onGrid_toLvEpoch
    rw [h] at hs hval
    refine .inl ⟨hval ▸ t.toLvEpoch.representable, .inl ?_⟩
    rw [hs, trunc_of_nonneg hpos]
    exact Int.floor_nonneg.mpr hpos
  · exact .inr (h.symm.trans (fromLvEpoch_top htop.ge))

theorem trip_of_fits {t : LVTime} (h : Fits t) : fromLvEpoch t.toLvEpoch = t := by
  rcases h with ⟨hrep, hpos | hf⟩ | htop
  · have hval := toLvEpoch_of_representable hpos hrep
    have hrange : 0 ≤ t.value ∧ t.value < 2 ^ 63 := by
      have hf : (t.fractions.toNat : ℚ) / 2 ^ 64 < 1 := by
        rw [div_lt_one (by positivity)]
        exact_mod_cast t.fractions.toNat_lt
      have hs : (t.seconds.toInt + 1 : ℚ) ≤ 2 ^ 63 := by exact_mod_cast t.seconds.toInt_lt
      have hsq : (0 : ℚ) ≤ t.seconds.toInt := by exact_mod_cast hpos
      rw [value]
      exact ⟨by positivity, by linarith⟩
    obtain ⟨hback, -⟩ := fromLvEpoch_nonneg (hval ▸ hrange.1) (hval ▸ hrange.2) t.onGrid_toLvEpoch
    rw [hval, value_eq, value_eq, div_left_inj' (by norm_num)] at hback
    exact instant_inj.mp (by exact_mod_cast hback)
  · have hval := toLvEpoch_of_fractions hf
    rw [value, hf] at hrep
    rw [F64.roundTo_eq (by simpa using hrep)] at hval
    obtain ⟨hs, hf'⟩ := fromLvEpoch_int hval t.seconds.le_toInt t.seconds.toInt_lt
    exact eq_of_parts hs (hf'.trans hf.symm)
  · rw [htop, fromLvEpoch_top toLvEpoch_top.ge]

/-- **From a timestamp and back**: exactly what fits comes back, and a second
trip changes nothing that the first one did not. -/
theorem trip_iff (t : LVTime) :
    (fromLvEpoch t.toLvEpoch = t ↔ Fits t) ∧ Fits (fromLvEpoch t.toLvEpoch) :=
  ⟨⟨fits_of_trip, trip_of_fits⟩, fits_of_trip (trip_trip t)⟩

/-! ## the order of time -/

/-- The fractions round up past the half second from half a spacing above it. -/
theorem half_lt_subSeconds_iff (t : LVTime) :
    1 / 2 < t.subSeconds.val ↔ 2 ^ 63 + 2 ^ 10 < t.fractions.toNat := by
  have hhalf : (1 / 2 : ℚ) * 2 ^ (64 : ℤ) = 2 ^ 63 := by norm_num
  rw [val_subSeconds, lt_div_iff₀ (two_zpow_pos 64), hhalf]
  rcases lt_or_ge t.fractions.toNat (2 ^ 63) with hlt | hge
  · have hle := roundTo_le (p := 53) (q := t.fractions.toNat) (by decide)
      (representable_two_pow 63) (by exact_mod_cast hlt.le)
    exact iff_of_false (not_lt.mpr hle) (by omega)
  · have hlo : (2 : ℚ) ^ (63 : ℤ) ≤ |(t.fractions.toNat : ℚ)| := by
      rw [Nat.abs_cast]
      exact_mod_cast hge
    have hhi : |(t.fractions.toNat : ℚ)| < 2 ^ ((63 : ℤ) + 1) := by
      rw [Nat.abs_cast]
      exact_mod_cast t.fractions.toNat_lt
    -- the next number above 2^63 is 2^11 away, and not reached from the middle
    have hnext := le_roundTo_iff_of_odd (p := 53) (c := 2 ^ 52 + 1) (by decide) hlo hhi
    obtain ⟨m, hm⟩ := onGrid_roundTo (p := 53) hlo
    rw [hm] at hnext ⊢
    norm_num at hnext ⊢
    rw [← hnext]
    constructor
    · intro h
      have hint : 9223372036854775808 < m * 2048 := by exact_mod_cast h
      exact_mod_cast (by omega : 9223372036854777856 ≤ m * 2048)
    · intro h
      linarith

theorem subSeconds_mono {a b : LVTime} (h : a.fractions.toNat ≤ b.fractions.toNat) :
    a.subSeconds.val ≤ b.subSeconds.val := by
  rw [val_subSeconds, val_subSeconds]
  exact div_le_div_of_nonneg_right (roundTo_mono (by decide) (by exact_mod_cast h))
    (two_zpow_pos 64).le

/-- The seconds are the odd number below -2^53, and are rounded up to it; their
sum with fractions of more than half a second is rounded up once more. -/
structure RoundsTwice (t : LVTime) : Prop where
  seconds : t.seconds.toInt = -2 ^ 53 - 1
  fractions : 2 ^ 63 + 2 ^ 10 < t.fractions.toNat

theorem toLvEpoch_mono {a b : LVTime} (ha : ¬ RoundsTwice a) (h : a.instant ≤ b.instant) :
    a.toLvEpoch.val ≤ b.toLvEpoch.val := by
  have hfa := a.fractions.toNat_lt
  have hfb := b.fractions.toNat_lt
  simp only [instant] at h
  rw [val_toLvEpoch, val_toLvEpoch]
  rcases lt_or_ge a.seconds.toInt b.seconds.toInt with hlt | hge
  · obtain ⟨hd, hd'⟩ := a.subSeconds_mem
    obtain ⟨he, -⟩ := b.subSeconds_mem
    have hnot : ¬ (a.seconds.toInt = -2 ^ 53 - 1 ∧ 1 / 2 < a.subSeconds.val) := fun hc =>
      ha ⟨hc.1, a.half_lt_subSeconds_iff.mp hc.2⟩
    calc roundTo 53 (roundTo 53 a.seconds.toInt + a.subSeconds.val)
        ≤ roundTo 53 (a.seconds.toInt + 1) := roundTo_add_le (by decide) hd hd' hnot
      _ ≤ roundTo 53 b.seconds.toInt := roundTo_mono (by decide) (by exact_mod_cast hlt)
      _ = roundTo 53 (roundTo 53 b.seconds.toInt) :=
          (F64.roundTo_eq (representable_roundTo (by decide) _)).symm
      _ ≤ roundTo 53 (roundTo 53 b.seconds.toInt + b.subSeconds.val) :=
          roundTo_mono (by decide) (by linarith)
  · have hs : a.seconds.toInt = b.seconds.toInt := by omega
    have hf := subSeconds_mono (a := a) (b := b) (by omega)
    rw [hs]
    exact roundTo_mono (by decide) (by linarith)

/-- A time that rounds twice overtakes the next whole second. -/
theorem RoundsTwice.overtakes {t : LVTime} (h : RoundsTwice t) :
    (fromParts (-2 ^ 53) 0).toLvEpoch.val < t.toLvEpoch.val := by
  have hd := t.half_lt_subSeconds_iff.mpr h.fractions
  obtain ⟨-, hd'⟩ := t.subSeconds_mem
  have hs : (fromParts (-2 ^ 53) 0).seconds.toInt = -2 ^ 53 := by decide
  have hup : (-2 ^ 53 : ℚ) ≤ roundTo 53 t.seconds.toInt := by
    have htie := le_roundTo_iff (p := 53) (k := 53) (c := -2 ^ 52) (q := t.seconds.toInt)
      (by decide) (by rw [h.seconds]; norm_num) (by rw [h.seconds]; norm_num)
    rw [h.seconds] at htie ⊢
    norm_num at htie ⊢
    exact htie
  have hagain : (-2 ^ 53 + 1 : ℚ) ≤ roundTo 53 (-2 ^ 53 + t.subSeconds.val) := by
    have hneg : (-2 ^ 53 + t.subSeconds.val : ℚ) < 0 := by linarith
    have hnext := le_roundTo_iff_of_odd (p := 53) (k := 52) (c := -2 ^ 53 + 1)
      (q := -2 ^ 53 + t.subSeconds.val) (by decide)
      (by rw [abs_of_neg hneg]; norm_num; linarith) (by rw [abs_of_neg hneg]; norm_num; linarith)
    norm_num at hnext ⊢
    exact hnext.mpr (by linarith)
  rw [toLvEpoch_of_fractions rfl, hs, F64.roundTo_intCast (by decide), val_toLvEpoch]
  calc ((-2 ^ 53 : ℤ) : ℚ) < -2 ^ 53 + 1 := by norm_num
    _ ≤ roundTo 53 (-2 ^ 53 + t.subSeconds.val) := hagain
    _ ≤ roundTo 53 (roundTo 53 t.seconds.toInt + t.subSeconds.val) :=
        roundTo_mono (by decide) (by linarith)

theorem not_roundsTwice_iff (a : LVTime) :
    (∀ b : LVTime, a.instant ≤ b.instant → a.toLvEpoch.val ≤ b.toLvEpoch.val) ↔
      ¬ RoundsTwice a := by
  constructor
  · intro h hr
    have hle := h (fromParts (-2 ^ 53) 0) ?_
    · exact absurd hr.overtakes (not_lt.mpr hle)
    · have hlt := a.fractions.toNat_lt
      have hs : (fromParts (-2 ^ 53) 0).seconds.toInt = -2 ^ 53 := by decide
      have hf : (fromParts (-2 ^ 53) 0).fractions.toNat = 0 := by decide
      rw [instant, instant, hr.seconds, hs, hf]
      omega
  · intro ha b h
    exact toLvEpoch_mono ha h

/-- The seconds of the trip back saturate below the range too. -/
theorem fromLvEpoch_bottom {x : F64} (hx : x.val ≤ -2 ^ 63) :
    fromLvEpoch x = fromParts Int64.minValue 0 := by
  have hneg : x.val < 0 := hx.trans_lt (by norm_num)
  have htrunc : trunc x.val ≤ -2 ^ 63 := by
    rw [trunc_of_neg hneg, Int.ceil_le]
    exact_mod_cast hx
  refine eq_of_parts ?_ (fractions_of_neg hneg)
  show (x / .ofInt 1).toI64.toInt = _
  rw [F64.toI64, val_div_one, F64.saturate_of_le htrunc (by omega)]
  rfl

/-- From 1904 on the instant is rounded down to the resolution. -/
theorem instant_fromLvEpoch_nonneg {x : F64} (hx : 0 ≤ x.val) (hhi : x.val < 2 ^ 63) :
    (fromLvEpoch x).instant = ⌊x.val * 2 ^ (64 : ℤ)⌋ := by
  have hlo : (-2 ^ 63 : ℚ) ≤ x.val := by linarith [show (0 : ℚ) ≤ 2 ^ 63 by positivity]
  rw [instant, toInt_seconds_fromLvEpoch hlo hhi, fractions_of_nonneg hx, ← Int.floor_intCast_add]
  congr 1
  push_cast
  ring

/-- Before 1904 it is rounded up to whole seconds. -/
theorem instant_fromLvEpoch_neg {x : F64} (hlo : -2 ^ 63 ≤ x.val) (hx : x.val < 0) :
    (fromLvEpoch x).instant = ⌈x.val⌉ * 2 ^ 64 := by
  obtain ⟨hs, hf⟩ := fromLvEpoch_neg hlo hx
  rw [instant, hs, hf, trunc_of_neg hx]
  exact add_zero _

/-- No `f64` is in the last second of the range. -/
theorem le_of_lt_top {x : F64} (h : x.val < 2 ^ 63) : x.val ≤ 2 ^ 63 - 1 := by
  rcases lt_or_ge x.val (2 ^ 62) with hlt | hge
  · norm_num at hlt ⊢
    linarith
  · have habs : (2 : ℚ) ^ (62 : ℤ) ≤ |x.val| := hge.trans (le_abs_self _)
    obtain ⟨n, hn⟩ := (x.representable.onGrid habs).mono (show (0 : ℤ) ≤ 62 + 1 - 53 by decide)
    rw [zpow_zero, mul_one] at hn
    rw [hn] at h ⊢
    have hint : n < 2 ^ 63 := by exact_mod_cast h
    exact_mod_cast (by omega : n ≤ 2 ^ 63 - 1)

theorem instant_mem (t : LVTime) :
    -2 ^ 63 * 2 ^ 64 ≤ t.instant ∧ t.instant < 2 ^ 63 * 2 ^ 64 := by
  have hs := t.seconds.le_toInt
  have hs' := t.seconds.toInt_lt
  have hf := t.fractions.toNat_lt
  rw [instant]
  omega

/-- Below the last second nothing is after its beginning. -/
theorem instant_fromLvEpoch_le (x : F64) :
    (fromLvEpoch x).instant ≤ (2 ^ 63 - 1) * 2 ^ 64 := by
  rcases lt_or_ge x.val (2 ^ 63) with hlt | hge
  · rcases lt_or_ge x.val 0 with hneg | hpos
    · have hs := (fromLvEpoch x).seconds.toInt_lt
      have hf : (fromLvEpoch x).fractions.toNat = 0 := by rw [fractions_of_neg hneg]; rfl
      rw [instant, hf]
      omega
    · rw [instant_fromLvEpoch_nonneg hpos hlt]
      have hfloor := Int.floor_le (x.val * 2 ^ (64 : ℤ))
      have hle := mul_le_mul_of_nonneg_right (le_of_lt_top hlt) (two_zpow_pos 64).le
      exact_mod_cast hfloor.trans hle
  · rw [fromLvEpoch_top hge]
    decide

/-- The timestamp keeps the order of the seconds, all of them. -/
theorem fromLvEpoch_mono {x y : F64} (h : x.val ≤ y.val) :
    (fromLvEpoch x).instant ≤ (fromLvEpoch y).instant := by
  rcases lt_or_ge y.val (2 ^ 63) with hy | hy
  · rcases lt_or_ge x.val (-2 ^ 63) with hx | hx
    · rw [fromLvEpoch_bottom hx.le]
      exact (fromLvEpoch y).instant_mem.1
    rcases lt_or_ge x.val 0 with hneg | hpos
    · rw [instant_fromLvEpoch_neg hx hneg]
      rcases lt_or_ge y.val 0 with hneg' | hpos'
      · rw [instant_fromLvEpoch_neg (hx.trans h) hneg']
        have hceil := Int.ceil_le_ceil h
        omega
      · have hceil : ⌈x.val⌉ ≤ 0 := Int.ceil_le.mpr (by exact_mod_cast hneg.le)
        have hfloor : 0 ≤ ⌊y.val * 2 ^ (64 : ℤ)⌋ := Int.floor_nonneg.mpr (by positivity)
        rw [instant_fromLvEpoch_nonneg hpos' hy]
        omega
    · rw [instant_fromLvEpoch_nonneg hpos (h.trans_lt hy),
        instant_fromLvEpoch_nonneg (hpos.trans h) hy]
      exact Int.floor_le_floor (mul_le_mul_of_nonneg_right h (two_zpow_pos 64).le)
  · rw [fromLvEpoch_top hy]
    exact instant_fromLvEpoch_le x

/-- **The conversions keep the order of time**, but for the timestamps that
round twice: the second is -2^53 - 1 and the fractions are above 2^63 + 2^10. -/
theorem keepsOrder_iff :
    (∀ x y : F64, x.val ≤ y.val → (fromLvEpoch x).instant ≤ (fromLvEpoch y).instant) ∧
      ∀ a : LVTime, (∀ b : LVTime, a.instant ≤ b.instant → a.toLvEpoch.val ≤ b.toLvEpoch.val) ↔
        ¬ RoundsTwice a :=
  ⟨fun _ _ h => fromLvEpoch_mono h, not_roundsTwice_iff⟩

end LVTime

end LvInterop
