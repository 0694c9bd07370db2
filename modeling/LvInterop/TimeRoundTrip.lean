import LvInterop.Chrono

/-!
# LvInterop.TimeRoundTrip

From a `chrono` time to a timestamp and back (`types/timestamp.rs`, feature
`chrono`).

The seconds since 1904 are added up in `f64`, which leaves fewer bits to the
fraction of a second the larger they are: 22 today.  All that follows is exact
on these bits, so the way back finds the nanoseconds that such a fraction has,
and no others (`dateTimeTryFrom_fromDateTime_iff`).
-/

namespace LvInterop

open Lib

/-! ## the sum of the seconds -/

/-- The seconds since 1904 of `s` seconds and `a` of a second since 1970, added
up as the conversion does. -/
def lvSum (s : ℤ) (a : ℚ) : ℚ := roundTo 53 (roundTo 53 (s + a) + 2082844800)

/-- The sums of second `s` are below 2^(k+1), and one of them is not below 2^k. -/
structure Magnitude (s : ℤ) (k : ℕ) : Prop where
  le : 2 ^ k ≤ s + 2082844800 ∨ 2 ^ k ≤ -s - 1
  lt : s + 2082844800 < 2 ^ (k + 1)
  neg_lt : -s - 1 < 2 ^ (k + 1)
  /-- the epochs are about 2^31 seconds apart -/
  ge : 29 ≤ k
  le_43 : k ≤ 43

section Sum

variable {s : ℤ} {k : ℕ} {a : ℚ}

/-- Seconds have fewer than 53 bits. -/
theorem Magnitude.representable (h : Magnitude s k) {j : ℤ} (hj : s ≤ j) (hj' : j ≤ s + 1) :
    Representable 53 j := by
  have hpow : (2 : ℤ) ^ (k + 1) ≤ 2 ^ 44 :=
    pow_le_pow_right₀ (by decide) (Nat.succ_le_succ h.le_43)
  have hlt := h.lt
  have hneg := h.neg_lt
  exact representable_intCast (by decide) (abs_le.mpr ⟨by omega, by omega⟩)

/-- The grid of the sums divides the second. -/
theorem Magnitude.onGrid_intCast (h : Magnitude s k) (n : ℤ) : OnGrid (k + 1 - (53 : ℕ)) n := by
  have hk := h.le_43
  exact Lib.onGrid_intCast (by omega) n

/-- The first sum stays in its second. -/
theorem Magnitude.roundTo_mem (h : Magnitude s k) (ha : 0 ≤ a) (ha' : a ≤ 1) :
    (s : ℚ) ≤ roundTo 53 (s + a) ∧ roundTo 53 (s + a) ≤ s + 1 := by
  have hlo := h.representable le_rfl (by omega)
  have hhi := h.representable (j := s + 1) (by omega) le_rfl
  push_cast at hhi
  exact ⟨le_roundTo (by decide) hlo (by linarith), roundTo_le (by decide) hhi (by linarith)⟩

/-- The numbers of that second are below 2^(k+1), before and after the shift. -/
theorem Magnitude.abs_le_two_zpow (h : Magnitude s k) {x : ℚ} (hlo : s ≤ x) (hhi : x ≤ s + 1) :
    |x| ≤ 2 ^ ((k : ℤ) + 1) ∧ |x + 2082844800| ≤ 2 ^ ((k : ℤ) + 1) := by
  have hlt : (s : ℚ) + 2082844800 + 1 ≤ 2 ^ ((k : ℤ) + 1) := by
    exact_mod_cast Int.add_one_le_of_lt h.lt
  have hneg : -(s : ℚ) ≤ 2 ^ ((k : ℤ) + 1) := by
    exact_mod_cast Int.le_of_sub_one_lt h.neg_lt
  rw [abs_le, abs_le]
  exact ⟨⟨by linarith, by linarith⟩, ⟨by linarith, by linarith⟩⟩

/-- Either the first sum is rounded to the grid and the second one is exact, or
the second one is rounded to it. -/
theorem Magnitude.lvSum_cases (h : Magnitude s k) (ha : 0 ≤ a) (ha' : a ≤ 1) :
    ((2 : ℚ) ^ (k : ℤ) ≤ |s + a| ∧ lvSum s a = roundTo 53 (s + a) + 2082844800) ∨
      (|(s : ℚ) + a| ≤ 2 ^ (k : ℤ) ∧ (2 : ℚ) ^ (k : ℤ) ≤ |roundTo 53 (s + a) + 2082844800|) := by
  obtain ⟨hlo, hhi⟩ := h.roundTo_mem ha ha'
  rcases le_or_gt ((2 : ℚ) ^ (k : ℤ)) |s + a| with hfar | hnear
  · refine .inl ⟨hfar, F64.roundTo_eq ?_⟩
    have hint := h.onGrid_intCast 2082844800
    refine OnGrid.representable (e := k + 1 - (53 : ℕ)) (by decide)
      ((onGrid_roundTo hfar).add (by exact_mod_cast hint)) ?_
    rw [show ((53 : ℕ) : ℤ) + (k + 1 - (53 : ℕ)) = k + 1 by ring]
    exact (h.abs_le_two_zpow hlo hhi).2
  · refine .inr ⟨hnear.le, ?_⟩
    rcases h.le with hle | hle
    · have hle' : (2 : ℚ) ^ (k : ℤ) ≤ s + 2082844800 := by exact_mod_cast hle
      exact (by linarith : (2 : ℚ) ^ (k : ℤ) ≤ _).trans (le_abs_self _)
    · -- then the first sum would not be below 2^k
      have hle' : (2 : ℚ) ^ (k : ℤ) ≤ -s - 1 := by exact_mod_cast hle
      have habs := neg_le_abs ((s : ℚ) + a)
      linarith

/-- The sum is on the grid. -/
theorem Magnitude.onGrid_lvSum (h : Magnitude s k) (ha : 0 ≤ a) (ha' : a ≤ 1) :
    OnGrid (k + 1 - (53 : ℕ)) (lvSum s a) := by
  obtain ⟨hfar, hsum⟩ | ⟨-, hfar⟩ := h.lvSum_cases ha ha'
  · have hint := h.onGrid_intCast 2082844800
    rw [hsum]
    exact (onGrid_roundTo hfar).add (by exact_mod_cast hint)
  · exact onGrid_roundTo hfar

/-- A fraction of the grid is what the sum has after the seconds, when it is
closer to `a` than a quarter of the spacing. -/
theorem Magnitude.lvSum_eq (h : Magnitude s k) (ha : 0 ≤ a) (ha' : a ≤ 1) {g : ℚ}
    (hg : OnGrid (k + 1 - (53 : ℕ)) g) (hclose : |a - g| < 2 ^ ((k : ℤ) - 1 - (53 : ℕ))) :
    lvSum s a = s + 2082844800 + g := by
  have hquarter : (2 : ℚ) ^ ((k : ℤ) - (53 : ℕ)) = 2 * 2 ^ ((k : ℤ) - 1 - (53 : ℕ)) := by
    rw [show (k : ℤ) - (53 : ℕ) = 1 + (k - 1 - (53 : ℕ)) by ring, two_zpow_add, zpow_one]
  have hpos := two_zpow_pos ((k : ℤ) - 1 - (53 : ℕ))
  obtain ⟨hfar, hsum⟩ | ⟨hnear, hfar⟩ := h.lvSum_cases ha ha'
  · have hround : roundTo 53 (s + a) = s + g := by
      refine roundTo_eq_of_close (by decide) hfar (h.abs_le_two_zpow (by linarith) (by linarith)).1
        ((h.onGrid_intCast s).add hg) ?_
      rw [add_sub_add_left_eq_sub]
      linarith
    rw [hsum, hround]
    ring
  · obtain ⟨hlo, hhi⟩ := h.roundTo_mem ha ha'
    have herr := abs_roundTo_sub_le (p := 53) (by decide) hnear
    have hint := h.onGrid_intCast (s + 2082844800)
    push_cast at hint
    refine roundTo_eq_of_close (by decide) hfar (h.abs_le_two_zpow hlo hhi).2 (hint.add hg) ?_
    rw [abs_le] at herr
    rw [abs_lt] at hclose ⊢
    constructor <;> linarith

/-- From 1904 on the sum is not negative. -/
theorem Magnitude.lvSum_mem (h : Magnitude s k) (ha : 0 ≤ a) (ha' : a ≤ 1)
    (hepoch : -2082844800 ≤ s) : 0 ≤ lvSum s a ∧ lvSum s a ≤ 2 ^ ((k : ℤ) + 1) := by
  obtain ⟨hlo, hhi⟩ := h.roundTo_mem ha ha'
  have hs : (-2082844800 : ℚ) ≤ s := by exact_mod_cast hepoch
  constructor
  · exact le_roundTo (by decide) (representable_zero 53) (by linarith)
  · exact roundTo_le (by decide) (representable_zpow (by decide) _)
      ((le_abs_self _).trans (h.abs_le_two_zpow hlo hhi).2)

end Sum

/-! ## the way back -/

/-- The whole seconds of a sum with `m / 2^q` of a second, and the nanoseconds
read from it. -/
theorem parts_fromLvEpoch {z : F64} {n : ℤ} {m q : ℕ} (hn : 0 ≤ n) (hn' : n < 2 ^ 63)
    (hm : m < 2 ^ q) (hq : q ≤ 23) (hz : z.val = n + (m : ℚ) / 2 ^ q) :
    (LVTime.fromLvEpoch z).seconds.toInt = n ∧
      ((LVTime.fromLvEpoch z).subSeconds * .ofInt 1000000000).toU32.toNat = m * 10 ^ 9 / 2 ^ q := by
  have hq0 : (0 : ℚ) < 2 ^ q := by positivity
  have hfrac : 0 ≤ (m : ℚ) / 2 ^ q ∧ (m : ℚ) / 2 ^ q < 1 := by
    rw [div_lt_one hq0]
    exact ⟨by positivity, by exact_mod_cast hm⟩
  have hnq : (0 : ℚ) ≤ n := by exact_mod_cast hn
  have hnq' : (n : ℚ) + 1 ≤ 2 ^ 63 := by exact_mod_cast Int.add_one_le_of_lt hn'
  have htrunc : trunc z.val = n := by
    rw [trunc_of_nonneg (by linarith), Int.floor_eq_iff]
    constructor <;> linarith
  have hfractions : (LVTime.fromLvEpoch z).fractions.toNat = m * 2 ^ (64 - q) := by
    have hpow : (2 : ℚ) ^ (64 : ℤ) = 2 ^ (64 - q) * 2 ^ q := by
      rw [← pow_add, Nat.sub_add_cancel (by omega)]
      rfl
    have hfloor := LVTime.fractions_of_nonneg (x := z) (by linarith)
    rw [htrunc, hz, add_sub_cancel_left, hpow, mul_comm (2 ^ (64 - q) : ℚ), ← mul_assoc,
      div_mul_cancel₀ _ hq0.ne'] at hfloor
    have hint : ⌊(m : ℚ) * 2 ^ (64 - q)⌋ = ((m * 2 ^ (64 - q) : ℕ) : ℤ) := by
      exact_mod_cast Int.floor_natCast (R := ℚ) (m * 2 ^ (64 - q))
    exact_mod_cast hfloor.trans hint
  constructor
  · rw [LVTime.toInt_seconds_fromLvEpoch (by linarith) (by linarith), htrunc]
  · have hnanos := toNat_toU32_nanos (LVTime.fromLvEpoch z)
    rw [hfractions, scaledNanos_of_bits hm hq, Rat.floor_natCast_div_natCast] at hnanos
    exact_mod_cast hnanos

/-- The timestamp of a time is that of the sum. -/
theorem exists_fromDateTime_eq (c : Chrono) (d : c.DateTime) {k : ℕ}
    (h : Magnitude (c.timestamp d).toInt k) (hnanos : (c.timestampSubsecNanos d).toNat < 10 ^ 9) :
    ∃ z : F64, LVTime.fromDateTime c d = LVTime.fromLvEpoch z ∧
      z.val = lvSum (c.timestamp d).toInt
        (roundTo 53 ((c.timestampSubsecNanos d).toNat / 10 ^ 9)) := by
  refine ⟨_, rfl, ?_⟩
  have hs := F64.roundTo_eq (h.representable le_rfl (by omega))
  have hn : roundTo 53 ((c.timestampSubsecNanos d).toNat : ℤ) = (c.timestampSubsecNanos d).toNat := by
    exact_mod_cast F64.roundTo_natCast (by omega)
  have hgiga : roundTo 53 (1000000000 : ℤ) = (1000000000 : ℤ) := F64.roundTo_intCast (by decide)
  have hepoch : UNIX_EPOCH_IN_LV_SECONDS_F64.val = 2082844800 := F64.roundTo_intCast (by decide)
  rw [F64.val_add, F64.val_add, F64.val_div, F64.val_ofInt, F64.val_ofInt, F64.val_ofInt, hs, hn,
    hgiga, hepoch, lvSum]
  norm_num

/-- The bits of a fraction of a second that the sum has room for. -/
def keptBits (s : ℤ) : ℕ := 52 - Nat.log 2 (max (s + 2082844800) (-s - 1)).toNat

/-- The magnitude of the seconds in `chrono`'s range. -/
theorem exists_magnitude {s : ℤ} (hlo : -2082844800 ≤ s) (hhi : s < 2 ^ 43) :
    ∃ k, Magnitude s k ∧ keptBits s = 52 - k := by
  refine ⟨_, ?_, rfl⟩
  generalize hM : (max (s + 2082844800) (-s - 1)).toNat = M
  have hge : 2 ^ 29 ≤ M := by omega
  have hlt : M < 2 ^ 44 := by omega
  have hlog := Nat.pow_log_le_self 2 (show M ≠ 0 by omega)
  have hlog' := Nat.lt_pow_succ_log_self (by decide : 1 < 2) M
  generalize hk : Nat.log 2 M = k at hlog hlog' ⊢
  have hcast : ((2 ^ k : ℕ) : ℤ) = 2 ^ k := by push_cast; rfl
  have hcast' : ((2 ^ (k + 1) : ℕ) : ℤ) = 2 ^ (k + 1) := by push_cast; rfl
  constructor
  · omega
  · omega
  · omega
  · rw [← hk]
    exact Nat.le_log_of_pow_le (by decide) hge
  · rw [← hk]
    exact Nat.le_of_lt_succ (Nat.log_lt_of_lt_pow (by omega) hlt)

/-- Every time outside a leap second is in range. -/
theorem Chrono.Lawful.timestamp_lt {c : Chrono} (hc : c.Lawful) {d : c.DateTime}
    (hnanos : (c.timestampSubsecNanos d).toNat < 10 ^ 9) : (c.timestamp d).toInt < 2 ^ 43 :=
  lt_of_le_of_lt ((hc.fromTimestamp _ _).mp ⟨d, hc.ofParts d hnanos⟩).1.2 hc.maxSeconds_lt

/-- The nanoseconds as a fraction of a second. -/
theorem fractional_mem {n : ℕ} (hn : n < 10 ^ 9) : 0 ≤ roundTo 53 ((n : ℚ) / 10 ^ 9) ∧
    roundTo 53 ((n : ℚ) / 10 ^ 9) ≤ 1 ∧ |roundTo 53 ((n : ℚ) / 10 ^ 9) - n / 10 ^ 9| ≤ 1 / 2 ^ 54 := by
  have hpos : (0 : ℚ) ≤ n / 10 ^ 9 := by positivity
  have hle : (n : ℚ) / 10 ^ 9 ≤ 2 ^ (0 : ℤ) := by
    rw [zpow_zero, div_le_one (by norm_num)]
    exact_mod_cast hn.le
  refine ⟨le_roundTo (by decide) (representable_zero 53) hpos, ?_, ?_⟩
  · exact_mod_cast roundTo_le (by decide) (representable_zpow (p := 53) (by decide) 0) hle
  · have herr := abs_roundTo_sub_le (p := 53) (q := (n : ℚ) / 10 ^ 9) (k := 0) (by decide)
      (by rwa [abs_of_nonneg hpos])
    norm_num at herr ⊢
    exact herr

/-- The cut loses less than a nanosecond. -/
theorem abs_sub_div_le_of_eq_div {n m q : ℕ} (h : n = m * 10 ^ 9 / 2 ^ q) :
    |(n : ℚ) / 10 ^ 9 - m / 2 ^ q| ≤ 1 / 10 ^ 9 := by
  have hle : n * 2 ^ q ≤ m * 10 ^ 9 := h ▸ Nat.div_mul_le_self _ _
  have hlt : m * 10 ^ 9 < (n + 1) * 2 ^ q := by
    rw [h, mul_comm _ (2 ^ q)]
    exact Nat.lt_mul_div_succ _ (Nat.two_pow_pos q)
  have hleq : (n : ℚ) / 10 ^ 9 ≤ m / 2 ^ q := by
    rw [div_le_div_iff₀ (by norm_num) (by positivity)]
    exact_mod_cast hle
  have hltq : (m : ℚ) / 2 ^ q < (n + 1) / 10 ^ 9 := by
    rw [div_lt_div_iff₀ (by positivity) (by norm_num)]
    exact_mod_cast hlt
  rw [add_div] at hltq
  rw [abs_of_nonpos (by linarith)]
  linarith

/-- Whatever the way back finds is the nanoseconds of a fraction that was kept. -/
theorem exists_bits_of_roundTrip {c : Chrono} (hc : c.Lawful) {overflowChecks : Bool}
    {d : c.DateTime} (hepoch : -2082844800 ≤ (c.timestamp d).toInt)
    (hnanos : (c.timestampSubsecNanos d).toNat < 10 ^ 9)
    (h : dateTimeTryFrom c overflowChecks (LVTime.fromDateTime c d) = .ok d) :
    ∃ m : ℕ, (c.timestampSubsecNanos d).toNat =
      m * 10 ^ 9 / 2 ^ keptBits (c.timestamp d).toInt := by
  obtain ⟨k, hk, hbits⟩ := exists_magnitude hepoch (hc.timestamp_lt hnanos)
  obtain ⟨z, heq, hz⟩ := exists_fromDateTime_eq c d hk hnanos
  obtain ⟨ha, ha', -⟩ := fractional_mem hnanos
  obtain ⟨hpos, hle⟩ := hk.lvSum_mem ha ha' hepoch
  have hgrid := hk.onGrid_lvSum ha ha'
  have h43 := hk.le_43
  rw [← hz] at hpos hle hgrid
  rw [show (k : ℤ) + 1 - (53 : ℕ) = -((52 - k : ℕ) : ℤ) by omega] at hgrid
  obtain ⟨n, m, hm, hsum⟩ := hgrid.exists_parts hpos
  have hn : (n : ℤ) < 2 ^ 63 := by
    have hpow : (2 : ℚ) ^ ((k : ℤ) + 1) ≤ 2 ^ (44 : ℤ) := two_zpow_le (by omega)
    have hfrac : 0 ≤ (m : ℚ) / 2 ^ (52 - k) := by positivity
    norm_num at hpow
    have hlt : (n : ℚ) < 2 ^ 63 := by linarith
    exact_mod_cast hlt
  have hge := hk.ge
  obtain ⟨hsec, hns⟩ := parts_fromLvEpoch (n := n) (by omega) hn hm (by omega)
    (by exact_mod_cast hsum)
  have hunix : -2 ^ 63 ≤ (LVTime.fromLvEpoch z).unixSeconds := by
    rw [LVTime.unixSeconds, hsec]
    omega
  rw [heq] at h
  obtain ⟨-, hparts⟩ := parts_of_dateTimeTryFrom hc hunix h
  exact ⟨m, by rw [hparts, hns, hbits]⟩

/-- Nanoseconds of a fraction that is kept are added up to that fraction: a
nanosecond is less than a quarter of the spacing. -/
theorem Magnitude.lvSum_of_bits {s : ℤ} {k n m q : ℕ} (h : Magnitude s k) (hq : q = 52 - k)
    (hn : n < 10 ^ 9) (hm : n = m * 10 ^ 9 / 2 ^ q) :
    lvSum s (roundTo 53 (n / 10 ^ 9)) = s + 2082844800 + (m : ℚ) / 2 ^ q := by
  obtain ⟨ha, ha', hclose⟩ := fractional_mem hn
  have hge := h.ge
  have h43 := h.le_43
  refine h.lvSum_eq ha ha' ⟨m, ?_⟩ ?_
  · rw [show (k : ℤ) + 1 - (53 : ℕ) = -(q : ℤ) by omega, zpow_neg, zpow_natCast, div_eq_mul_inv,
      Int.cast_natCast]
  · have hquarter : (2 : ℚ) ^ (-25 : ℤ) ≤ 2 ^ ((k : ℤ) - 1 - (53 : ℕ)) := two_zpow_le (by omega)
    have hbits := abs_sub_div_le_of_eq_div hm
    have htri := abs_sub_le (roundTo 53 (n / 10 ^ 9)) (n / 10 ^ 9) ((m : ℚ) / 2 ^ q)
    norm_num at hclose hquarter hbits htri ⊢
    linarith

/-- Nanoseconds of a fraction that is kept are found again. -/
theorem roundTrip_of_bits {c : Chrono} (hc : c.Lawful) (overflowChecks : Bool)
    {d : c.DateTime} (hepoch : -2082844800 ≤ (c.timestamp d).toInt)
    (hnanos : (c.timestampSubsecNanos d).toNat < 10 ^ 9) {m : ℕ}
    (hm : (c.timestampSubsecNanos d).toNat = m * 10 ^ 9 / 2 ^ keptBits (c.timestamp d).toInt) :
    dateTimeTryFrom c overflowChecks (LVTime.fromDateTime c d) = .ok d := by
  obtain ⟨k, hk, hbits⟩ := exists_magnitude hepoch (hc.timestamp_lt hnanos)
  obtain ⟨z, heq, hz⟩ := exists_fromDateTime_eq c d hk hnanos
  have hge := hk.ge
  have h43 := hk.le_43
  have hlt := hc.timestamp_lt hnanos
  rw [hbits] at hm
  generalize hq : 52 - k = q at hm
  have hm' : m < 2 ^ q := by
    have hdiv := (Nat.div_lt_iff_lt_mul (Nat.two_pow_pos q)).mp (hm ▸ hnanos)
    exact Nat.lt_of_mul_lt_mul_left (by linarith : 10 ^ 9 * m < 10 ^ 9 * 2 ^ q)
  have hsum := hk.lvSum_of_bits hq.symm hnanos hm
  obtain ⟨hsec, hns⟩ := parts_fromLvEpoch (z := z) (n := (c.timestamp d).toInt + 2082844800)
    (by omega) (by omega) hm' (by omega) (by rw [hz, hsum]; push_cast; ring)
  have hunix : (LVTime.fromLvEpoch z).unixSeconds = (c.timestamp d).toInt := by
    rw [LVTime.unixSeconds, hsec, add_sub_cancel_right]
  obtain ⟨s, hs, hmatch⟩ := dateTimeTryFrom_of_le (c := c) (t := LVTime.fromLvEpoch z)
    (by omega) overflowChecks
  rw [hunix] at hs
  rw [heq, hmatch, Int64.toInt_inj.mp hs, UInt32.toNat_inj.mp (hns.trans hm.symm),
    hc.ofParts d hnanos]

/-- **A time survives the way to a timestamp and back exactly** if its
nanoseconds are those of a fraction of as many bits as are kept. -/
theorem dateTimeTryFrom_fromDateTime_iff {c : Chrono} (hc : c.Lawful) (overflowChecks : Bool)
    {d : c.DateTime} (hepoch : -2082844800 ≤ (c.timestamp d).toInt)
    (hnanos : (c.timestampSubsecNanos d).toNat < 10 ^ 9) :
    dateTimeTryFrom c overflowChecks (LVTime.fromDateTime c d) = .ok d ↔
      ∃ m : ℕ, (c.timestampSubsecNanos d).toNat =
        m * 10 ^ 9 / 2 ^ keptBits (c.timestamp d).toInt := by
  constructor
  · exact exists_bits_of_roundTrip hc hepoch hnanos
  · rintro ⟨m, hm⟩
    exact roundTrip_of_bits hc overflowChecks hepoch hnanos hm

/-- Half a second past the Unix epoch. -/
theorem roundTrip_halfSecond :
    dateTimeTryFrom utc true (LVTime.fromDateTime utc ⟨(0, 500000000), by decide⟩) =
      .ok ⟨(0, 500000000), by decide⟩ :=
  (dateTimeTryFrom_fromDateTime_iff lawful_utc true (by decide) (by decide)).mpr
    ⟨2 ^ 21, by decide⟩

/-- A nanosecond past it is lost. -/
theorem not_roundTrip_nanosecond :
    dateTimeTryFrom utc true (LVTime.fromDateTime utc ⟨(0, 1), by decide⟩) ≠
      .ok ⟨(0, 1), by decide⟩ := by
  intro h
  obtain ⟨m, hm⟩ := exists_bits_of_roundTrip lawful_utc (by decide) (by decide) h
  have hbits : keptBits (utc.timestamp ⟨(0, 1), by decide⟩).toInt = 22 := by decide
  have hone : (utc.timestampSubsecNanos ⟨(0, 1), by decide⟩).toNat = 1 := by decide
  rw [hbits, hone] at hm
  omega

end LvInterop
