import LvInterop.EpochTrips

/-!
# LvInterop.UnixTrips

Timestamps as `f64` seconds of the Unix epoch, there and back
(`types/timestamp.rs`).

The epochs are a multiple of 2^7 s apart and most times are farther from 1904
than from 1970, so of the two conversions one rounds and the other has room
for the result (`representable_sub_epoch`).  Seconds lose what their sum with
the epoch has no bits for, once (`unixTrip_exact`), and a timestamp from 1938
on loses what it loses as seconds since 1904 (`fromUnixEpoch_toUnixEpoch`).
-/

namespace LvInterop

open Lib

namespace LVTime

theorem val_unixEpoch : UNIX_EPOCH_IN_LV_SECONDS_F64.val = 2082844800 :=
  F64.roundTo_intCast (by decide)

theorem val_toUnixEpoch (t : LVTime) :
    t.toUnixEpoch.val = roundTo 53 (t.toLvEpoch.val - 2082844800) := by
  rw [toUnixEpoch, F64.val_sub, val_unixEpoch]

/-! ## the distance of the epochs -/

theorem onGrid_epoch {e : ℤ} (h : e ≤ 7) : OnGrid e 2082844800 :=
  OnGrid.mono h ⟨16272225, by norm_num⟩

/-- A number of 1938 or later has room for its distance to 1970. -/
theorem representable_sub_epoch {y : ℚ} (hy : Representable 53 y) (hlo : 2 ^ 30 ≤ y)
    (hhi : y < 2 ^ 60) : Representable 53 (y - 2082844800) := by
  have hpos : 0 < y := hlo.trans_lt' (by norm_num)
  have hlog := two_zpow_log_le hpos.ne'
  have hlog' := lt_two_zpow_log y
  rw [abs_of_pos hpos] at hlog hlog'
  have hk : 30 < Int.log 2 y + 1 := by
    rw [← two_zpow_lt_iff]
    exact hlog'.trans_le' (by exact_mod_cast hlo)
  have hk' : Int.log 2 y < 60 := by
    rw [← two_zpow_lt_iff]
    exact hlog.trans_lt (by exact_mod_cast hhi)
  have hgrid := (hy.onGrid (by rwa [abs_of_pos hpos])).sub (onGrid_epoch (by omega))
  have hspan : (2 : ℚ) ^ (31 : ℤ) ≤ 2 ^ (Int.log 2 y + 1) := two_zpow_le (by omega)
  refine hgrid.representable (by decide) ?_
  rw [show ((53 : ℕ) : ℤ) + (Int.log 2 y + 1 - (53 : ℕ)) = Int.log 2 y + 1 by ring, abs_le]
  norm_num at hspan
  constructor
  · linarith
  · linarith

/-- Before 1938 the sum with the epoch has as many bits as the distance to 1970. -/
theorem onGrid_add_epoch {x : ℚ} (hx : Representable 53 x) (hhi : x + 2082844800 < 2 ^ 30) :
    OnGrid (-23) (x + 2082844800) := by
  have habs : (2 : ℚ) ^ (29 : ℤ) ≤ |x| := by
    rw [abs_of_neg (by norm_num at hhi; linarith)]
    norm_num at hhi ⊢
    linarith
  exact (hx.onGrid habs).add (onGrid_epoch (by decide))

/-- A number no sum with the epoch is rounded beyond. -/
theorem representable_end : Representable 53 (2 ^ 59 + 2 ^ 31) := by
  have hgrid := ((onGrid_zpow 59).mono (show (31 : ℤ) ≤ 59 by decide)).add (onGrid_zpow 31)
  exact_mod_cast hgrid.representable (p := 53) (by decide) (by norm_num)

/-- `y` is a number of seconds since 1904 that loses nothing more: not as a
timestamp, and not on the way to 1970. -/
structure Settled (y : ℚ) : Prop where
  nonneg : 0 ≤ y
  lt : y < 2 ^ 63
  onGrid : OnGrid (-64) y
  sub : Representable 53 (y - 2082844800)

/-- Seconds settle when the epoch is added. -/
theorem settled_add_epoch {x : ℚ} (hx : Representable 53 x) (hlo : -2082844800 ≤ x)
    (hhi : x ≤ 2 ^ 59) : Settled (roundTo 53 (x + 2082844800)) := by
  rcases lt_or_ge (x + 2082844800) (2 ^ 30) with hlt | hge
  · -- before 1938 the sum is exact
    have hgrid := onGrid_add_epoch hx hlt
    have hrep : Representable 53 (x + 2082844800) := by
      refine hgrid.representable (by decide) ?_
      rw [abs_of_nonneg (by linarith)]
      norm_num at hlt ⊢
      exact hlt.le
    rw [F64.roundTo_eq hrep]
    refine ⟨by linarith, hlt.trans (by norm_num), hgrid.mono (by decide), ?_⟩
    rwa [add_sub_cancel_right]
  · have hrep := representable_roundTo (p := 53) (by decide) (x + 2082844800)
    have hlow : (2 : ℚ) ^ 30 ≤ roundTo 53 (x + 2082844800) :=
      le_roundTo (by decide) (representable_two_pow 30) hge
    have hhigh : roundTo 53 (x + 2082844800) ≤ 2 ^ 59 + 2 ^ 31 :=
      roundTo_le (by decide) representable_end (by linarith)
    have habs : (2 : ℚ) ^ (30 : ℤ) ≤ |roundTo 53 (x + 2082844800)| := by
      exact_mod_cast hlow.trans (le_abs_self _)
    refine ⟨hlow.trans' (by norm_num), hhigh.trans_lt (by norm_num),
      (hrep.onGrid habs).mono (by decide), representable_sub_epoch hrep hlow ?_⟩
    exact hhigh.trans_lt (by norm_num)

/-! ## from seconds and back -/

/-- The trip of seconds since 1970 and back. -/
def unixTrip (x : F64) : F64 := (fromUnixEpoch x).toUnixEpoch

/-- The trip keeps the sum with the epoch, as far as it has bits for it. -/
theorem val_unixTrip {x : F64} (h : Settled (roundTo 53 (x.val + 2082844800))) :
    (unixTrip x).val = roundTo 53 (x.val + 2082844800) - 2082844800 := by
  have hsum : (x + UNIX_EPOCH_IN_LV_SECONDS_F64).val = roundTo 53 (x.val + 2082844800) := by
    rw [F64.val_add, val_unixEpoch]
  rw [← hsum] at h ⊢
  obtain ⟨-, hback⟩ := fromLvEpoch_nonneg h.nonneg h.lt h.onGrid
  rw [unixTrip, fromUnixEpoch, val_toUnixEpoch, hback, F64.roundTo_eq h.sub]

/-- What a trip gives the next trip keeps. -/
theorem unixTrip_unixTrip {x : F64} (h : Settled (roundTo 53 (x.val + 2082844800))) :
    unixTrip (unixTrip x) = unixTrip x := by
  have hval := val_unixTrip h
  have hsum : roundTo 53 ((unixTrip x).val + 2082844800) = roundTo 53 (x.val + 2082844800) := by
    rw [hval, sub_add_cancel, F64.roundTo_eq (representable_roundTo (by decide) _)]
  apply F64.ext
  rw [val_unixTrip (hsum ▸ h), hsum, hval]

/-- **Seconds since 1970 and back**, for any time from 1904 up to 2^59 s: exactly
those come back whose sum with the epoch is an `f64`, a second trip changes
nothing, and while the sum is at most 2^33 the trip loses at most 2^-21 s.
Far beyond, the difference may round back to seconds whose sum was rounded. -/
theorem unixTrip_exact {x : F64} (hlo : -2082844800 ≤ x.val) (hhi : x.val ≤ 2 ^ 59) :
    (unixTrip x = x ↔ Representable 53 (x.val + 2082844800)) ∧
      unixTrip (unixTrip x) = unixTrip x ∧
      (x.val + 2082844800 ≤ 2 ^ 33 → |(unixTrip x).val - x.val| ≤ 1 / 2 ^ 21) := by
  have hsettled := settled_add_epoch x.representable hlo hhi
  have hval := val_unixTrip hsettled
  refine ⟨⟨fun h => ?_, fun h => ?_⟩, unixTrip_unixTrip hsettled, fun h => ?_⟩
  · have heq : x.val + 2082844800 = roundTo 53 (x.val + 2082844800) := by
      rw [h] at hval
      linarith
    rw [heq]
    exact representable_roundTo (by decide) _
  · apply F64.ext
    rw [hval, F64.roundTo_eq h, add_sub_cancel_right]
  · have habs : |x.val + 2082844800| ≤ 2 ^ (33 : ℤ) := by
      rw [abs_of_nonneg (by linarith)]
      exact_mod_cast h
    have herr := abs_roundTo_sub_le (p := 53) (by decide) habs
    rw [hval, sub_sub, add_comm (2082844800 : ℚ)]
    norm_num at herr ⊢
    exact herr

/-- Half a second before 1970. -/
theorem unixTrip_exact_halfSeconds :
    unixTrip (halfSeconds (-1) (by decide)) = halfSeconds (-1) (by decide) := by
  have hval : (halfSeconds (-1) (by decide)).val = -1 / 2 := by norm_num [halfSeconds]
  refine (unixTrip_exact ?_ ?_).1.mpr ?_
  · rw [hval]
    norm_num
  · rw [hval]
    norm_num
  · rw [hval]
    have hgrid : OnGrid (-1) (-1 / 2 + 2082844800) := ⟨4165689599, by norm_num⟩
    exact hgrid.representable (by decide) (by norm_num [abs_of_pos])

/-! ## from a timestamp and back -/

/-- From 1938 on the detour over 1970 changes nothing. -/
theorem fromUnixEpoch_toUnixEpoch {t : LVTime} (hlo : 2 ^ 30 ≤ t.seconds.toInt)
    (hhi : t.seconds.toInt < 2 ^ 59) : fromUnixEpoch t.toUnixEpoch = fromLvEpoch t.toLvEpoch := by
  obtain ⟨hd, hd'⟩ := t.subSeconds_mem
  have hs : (2 ^ 30 : ℚ) ≤ roundTo 53 t.seconds.toInt :=
    le_roundTo (by decide) (representable_two_pow 30) (by exact_mod_cast hlo)
  have hs' : roundTo 53 t.seconds.toInt ≤ 2 ^ 59 :=
    roundTo_le (by decide) (representable_two_pow 59) (by exact_mod_cast hhi.le)
  have hy : 2 ^ 30 ≤ t.toLvEpoch.val := by
    rw [val_toLvEpoch]
    exact le_roundTo (by decide) (representable_two_pow 30) (by linarith)
  have hy' : t.toLvEpoch.val < 2 ^ 60 := by
    rw [val_toLvEpoch]
    exact (roundTo_le (by decide) representable_end (by linarith)).trans_lt (by norm_num)
  have hsub := representable_sub_epoch t.toLvEpoch.representable hy hy'
  have hsum : t.toUnixEpoch + UNIX_EPOCH_IN_LV_SECONDS_F64 = t.toLvEpoch := by
    apply F64.ext
    rw [F64.val_add, val_unixEpoch, val_toUnixEpoch, F64.roundTo_eq hsub, sub_add_cancel,
      F64.roundTo_eq t.toLvEpoch.representable]
  rw [fromUnixEpoch, hsum]

/-- **From a timestamp to seconds since 1970 and back**: from 1938 on, and below
2^59 s, exactly those come back that the seconds since 1904 have room for, and a
second trip changes nothing. -/
theorem unixTrip_iff {t : LVTime} (hlo : 2 ^ 30 ≤ t.seconds.toInt) (hhi : t.seconds.toInt < 2 ^ 59) :
    (fromUnixEpoch t.toUnixEpoch = t ↔ Fits t) ∧ Fits (fromUnixEpoch t.toUnixEpoch) := by
  rw [fromUnixEpoch_toUnixEpoch hlo hhi]
  exact ⟨⟨fits_of_trip, trip_of_fits⟩, fits_of_trip (trip_trip t)⟩

/-- A time of 2026, to the second. -/
theorem unixTrip_iff_2026 : Fits (fromUnixEpoch (fromParts 3850000000 0).toUnixEpoch) :=
  (unixTrip_iff (t := fromParts 3850000000 0) (by decide) (by decide)).2

end LVTime

end LvInterop
