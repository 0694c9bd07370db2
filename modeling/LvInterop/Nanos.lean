import LvInterop.Epoch
import Mathlib.Algebra.Order.Floor.Div

/-!
# LvInterop.Nanos

The nanoseconds of a timestamp's fractions (`types/timestamp.rs`).

They are computed in `f64`: the fractions are rounded to 53 bits, divided by
2^64, multiplied by 10^9 and rounded again.  The first rounding can make a
whole second of them (`scaledNanos_eq_iff`), and together with the second one
can lose a nanosecond that they had reached
(`wholeNanos_le_scaledNanos_iff_keeps`).
-/

namespace LvInterop

open Lib

/-- What the product of `sub_seconds` and 10^9 is for `fractions`. -/
def scaledNanos (fractions : ℕ) : ℚ := roundTo 53 (roundTo 53 fractions / 2 ^ 64 * 10 ^ 9)

theorem val_subSeconds_mul (t : LVTime) :
    (t.subSeconds * .ofInt 1000000000).val = scaledNanos t.fractions.toNat := by
  have hscale : roundTo 53 (1000000000 : ℤ) = (1000000000 : ℤ) := F64.roundTo_intCast (by decide)
  rw [F64.val_mul, LVTime.val_subSeconds, F64.val_ofInt, hscale, scaledNanos]
  norm_num

/-- The fractions rounded to 53 bits. -/
theorem roundTo_fractions_mem {f : ℕ} (hf : f < 2 ^ 64) :
    0 ≤ roundTo 53 f ∧ roundTo 53 f ≤ 2 ^ 64 ∧ |roundTo 53 f - f| ≤ 2 ^ 10 := by
  have hf' : (f : ℚ) ≤ 2 ^ (64 : ℤ) := by
    norm_num
    exact_mod_cast hf.le
  have habs : |(f : ℚ)| ≤ 2 ^ (64 : ℤ) := by rwa [Nat.abs_cast]
  refine ⟨le_roundTo (by decide) (representable_zero 53) (Nat.cast_nonneg f), ?_, ?_⟩
  · exact_mod_cast roundTo_le (p := 53) (by decide) (representable_zpow (by decide) 64) hf'
  · exact_mod_cast abs_roundTo_sub_le (p := 53) (by decide) habs

/-- From the last half spacing below 2^64 on they are rounded to 2^64. -/
theorem roundTo_fractions_eq_iff {f : ℕ} (hf : f < 2 ^ 64) :
    roundTo 53 f = 2 ^ 64 ↔ 2 ^ 64 - 1024 ≤ f := by
  obtain ⟨-, hle, hclose⟩ := roundTo_fractions_mem hf
  have hlog : 2 ^ 63 ≤ f → Nat.log 2 f = 63 := fun h =>
    (Nat.log_eq_iff (by omega)).mpr ⟨h, hf⟩
  have hiff : 2 ^ 63 ≤ f → (2 ^ 64 ≤ roundTo 53 f ↔ 2 ^ 64 - 1024 ≤ f) := fun h => by
    have h := mul_le_roundTo_natCast_iff (p := 53) (by decide) (f := f) (u := 2 ^ 11)
      (by rw [hlog h]) (2 ^ 53)
    norm_num at h ⊢
    rw [h]
    omega
  constructor
  · intro h
    have hfar : 2 ^ 63 ≤ f := by
      rw [h, abs_le] at hclose
      have hq : (2 ^ 63 : ℚ) ≤ f := by linarith
      exact_mod_cast hq
    exact (hiff hfar).mp h.ge
  · intro h
    exact le_antisymm hle ((hiff (by omega)).mpr h)

/-- Before that they stay a whole spacing below. -/
theorem roundTo_fractions_le {f : ℕ} (hf : f < 2 ^ 64 - 1024) :
    roundTo 53 f ≤ 2 ^ 64 - 2 ^ 11 := by
  have hf' : f < 2 ^ 64 := by omega
  obtain ⟨hpos, hle, -⟩ := roundTo_fractions_mem hf'
  have hne : roundTo 53 f ≠ 2 ^ 64 := fun h =>
    absurd ((roundTo_fractions_eq_iff hf').mp h) (by omega)
  by_contra hlt
  have hgrid := (representable_roundTo (p := 53) (by decide) f).onGrid (k := 63) (by
    rw [abs_of_nonneg hpos]
    norm_num at hlt ⊢
    linarith)
  refine hne (hgrid.eq_of_abs_sub_lt ?_ ?_)
  · exact_mod_cast (onGrid_zpow 64).mono (show 63 + 1 - ((53 : ℕ) : ℤ) ≤ 64 by decide)
  · rw [abs_of_nonpos (by linarith)]
    norm_num at hlt ⊢
    linarith

/-- The nanoseconds are a second at most, and close to those of the fractions. -/
theorem scaledNanos_mem {f : ℕ} (hf : f < 2 ^ 64) :
    0 ≤ scaledNanos f ∧ scaledNanos f ≤ 10 ^ 9 ∧
      |scaledNanos f - roundTo 53 f / 2 ^ 64 * 10 ^ 9| ≤ 1 / 2 ^ 24 ∧
      |scaledNanos f - f * 10 ^ 9 / 2 ^ 64| ≤ 1 / 2 ^ 23 := by
  obtain ⟨hpos, hle, hclose⟩ := roundTo_fractions_mem hf
  have hv : 0 ≤ roundTo 53 f / 2 ^ 64 * 10 ^ 9 := by positivity
  have hv' : roundTo 53 f / 2 ^ 64 * 10 ^ 9 ≤ 10 ^ 9 := by
    rw [div_mul_eq_mul_div, div_le_iff₀ (by norm_num)]
    linarith
  have hround : |scaledNanos f - roundTo 53 f / 2 ^ 64 * 10 ^ 9| ≤ 1 / 2 ^ 24 := by
    have habs : |roundTo 53 f / 2 ^ 64 * 10 ^ 9| ≤ 2 ^ (30 : ℤ) := by
      rw [abs_of_nonneg hv]
      norm_num at hv' ⊢
      linarith
    have herr := abs_roundTo_sub_le (p := 53) (by decide) habs
    norm_num at herr ⊢
    exact herr
  refine ⟨le_roundTo (by decide) (representable_zero 53) hv, ?_, hround, ?_⟩
  · have hsecond : Representable 53 (10 ^ 9 : ℤ) := representable_intCast (by decide) (by decide)
    exact roundTo_le (by decide) (by exact_mod_cast hsecond) hv'
  · have hscaled : |roundTo 53 f / 2 ^ 64 * 10 ^ 9 - f * 10 ^ 9 / 2 ^ 64| ≤ 1 / 2 ^ 24 := by
      rw [abs_le] at hclose ⊢
      constructor <;> linarith
    have htri := abs_sub_le (scaledNanos f) (roundTo 53 f / 2 ^ 64 * 10 ^ 9) (f * 10 ^ 9 / 2 ^ 64)
    norm_num at hround hscaled htri ⊢
    linarith

/-- They are a whole second exactly where the fractions are rounded to one. -/
theorem scaledNanos_eq_iff {f : ℕ} (hf : f < 2 ^ 64) :
    scaledNanos f = 10 ^ 9 ↔ 2 ^ 64 - 1024 ≤ f := by
  constructor
  · intro h
    by_contra hlt
    have hle := roundTo_fractions_le (not_le.mp hlt)
    obtain ⟨-, -, hround, -⟩ := scaledNanos_mem hf
    rw [h, abs_le] at hround
    norm_num at hround hle
    linarith
  · intro h
    have hsecond : roundTo 53 (10 ^ 9 : ℤ) = (10 ^ 9 : ℤ) := F64.roundTo_intCast (by decide)
    rw [scaledNanos, (roundTo_fractions_eq_iff hf).mpr h]
    norm_num at hsecond ⊢
    exact hsecond

/-- The whole nanoseconds in `fractions`. -/
def wholeNanos (fractions : ℕ) : ℕ := fractions * 10 ^ 9 / 2 ^ 64

theorem wholeNanos_mem (f : ℕ) :
    (wholeNanos f : ℚ) ≤ f * 10 ^ 9 / 2 ^ 64 ∧ f * 10 ^ 9 / 2 ^ 64 < (wholeNanos f : ℚ) + 1 := by
  have hle : wholeNanos f * 2 ^ 64 ≤ f * 10 ^ 9 := Nat.div_mul_le_self _ _
  have hlt : f * 10 ^ 9 < (wholeNanos f + 1) * 2 ^ 64 := by
    rw [wholeNanos]
    omega
  rw [le_div_iff₀ (by norm_num), div_lt_iff₀ (by norm_num)]
  exact ⟨by exact_mod_cast hle, by exact_mod_cast hlt⟩

/-- The spacing of the `f64`s around `fractions`. -/
def spacing (fractions : ℕ) : ℕ := 2 ^ (Nat.log 2 fractions + 1 - 53)

/-- The `f64` that `fractions` are rounded to is not below the first one that
makes their whole nanoseconds.  The product is rounded as well, and rounds up
to `n` from half the spacing below `n` on. -/
def KeepsWholeNanos (fractions : ℕ) : Prop :=
  let n := wholeNanos fractions
  let first := (n * 2 ^ 64 - 2 ^ (11 + Nat.log 2 (n - 1))) ⌈/⌉ (10 ^ 9 * spacing fractions)
  2 * (first * spacing fractions) + first % 2 ≤ 2 * fractions + spacing fractions

instance : DecidablePred KeepsWholeNanos := fun _ => inferInstanceAs (Decidable (_ ≤ _))

/-- One nanosecond is reached before the fractions need rounding, so only more
of them can be lost. -/
theorem two_le_wholeNanos_of_lt {f : ℕ} (hf : f < 2 ^ 64)
    (h : roundTo 53 f * 10 ^ 9 < (wholeNanos f : ℚ) * 2 ^ 64) : 2 ≤ wholeNanos f := by
  obtain ⟨-, -, hclose⟩ := roundTo_fractions_mem hf
  have hwhole : (wholeNanos f : ℚ) * 2 ^ 64 ≤ f * 10 ^ 9 := by
    exact_mod_cast Nat.div_mul_le_self (f * 10 ^ 9) (2 ^ 64)
  by_contra hsmall
  have hexact : f ≤ 2 ^ 53 := by
    by_contra hfar
    have hq : (2 ^ 53 + 1 : ℚ) ≤ f := by exact_mod_cast not_le.mp hfar
    have hn : (wholeNanos f : ℚ) ≤ 1 := by exact_mod_cast (by omega : wholeNanos f ≤ 1)
    rw [abs_le] at hclose
    linarith
  rw [F64.roundTo_natCast hexact] at h
  linarith

/-- The nanoseconds reach the whole ones of the fractions from half the spacing
below them on. -/
theorem wholeNanos_le_scaledNanos_iff {f : ℕ} (hf : f < 2 ^ 64) :
    (wholeNanos f : ℚ) ≤ scaledNanos f ↔
      (wholeNanos f : ℚ) * 2 ^ 64 - 2 ^ (11 + Nat.log 2 (wholeNanos f - 1)) ≤
        roundTo 53 f * 10 ^ 9 := by
  obtain ⟨hpos, -, hclose⟩ := roundTo_fractions_mem hf
  have hwhole : (wholeNanos f : ℚ) * 2 ^ 64 ≤ f * 10 ^ 9 := by
    exact_mod_cast Nat.div_mul_le_self (f * 10 ^ 9) (2 ^ 64)
  have hlt : wholeNanos f < 10 ^ 9 := by
    rw [wholeNanos]
    omega
  have hbig := two_le_wholeNanos_of_lt hf
  generalize wholeNanos f = n at hwhole hlt hbig ⊢
  have hpow : (0 : ℚ) < 2 ^ (11 + Nat.log 2 (n - 1)) := by positivity
  by_cases hkept : (n : ℚ) * 2 ^ 64 ≤ roundTo 53 f * 10 ^ 9
  · -- rounding the product keeps the integer `n`
    have hrep : Representable 53 (n : ℤ) := representable_intCast (by decide) (by
      rw [Nat.abs_cast]
      omega)
    refine iff_of_true (le_roundTo (by decide) (by exact_mod_cast hrep) ?_) (by linarith)
    rw [div_mul_eq_mul_div, le_div_iff₀ (by norm_num)]
    exact hkept
  · have hbelow := not_le.mp hkept
    have hn := hbig hbelow
    generalize hk : Nat.log 2 (n - 1) = k at hpow ⊢
    obtain ⟨hlo, hhi⟩ := (Nat.log_eq_iff (by omega)).mp hk
    have hk29 : k < 30 := (Nat.pow_lt_pow_iff_right (by decide : 1 < 2)).mp (by omega)
    have hloq : (2 ^ k + 1 : ℚ) ≤ n := by exact_mod_cast (by omega : 2 ^ k + 1 ≤ n)
    have hvmul : roundTo 53 f / 2 ^ 64 * 10 ^ 9 * 2 ^ 64 = roundTo 53 f * 10 ^ 9 := by ring
    have hround := natCast_le_roundTo_iff (p := 53) (k := k) (n := n)
      (q := roundTo 53 f / 2 ^ 64 * 10 ^ 9) (by omega) ?_ (by linarith) (by omega)
    · have hhalf : (2 : ℚ) ^ ((k : ℤ) - (53 : ℕ)) * 2 ^ 64 = 2 ^ (11 + k) := by
        rw [← zpow_natCast, ← zpow_natCast, ← two_zpow_add]
        congr 1
        push_cast
        ring
      rw [scaledNanos, hround, ← hvmul, ← hhalf]
      constructor
      · intro h
        linarith
      · intro h
        linarith
    · rw [abs_le] at hclose
      linarith

/-- **The whole nanoseconds of the fractions are reached** exactly where the
fractions are rounded to enough of them. -/
theorem wholeNanos_le_scaledNanos_iff_keeps {f : ℕ} (hf : f < 2 ^ 64) :
    (wholeNanos f : ℚ) ≤ scaledNanos f ↔ KeepsWholeNanos f := by
  obtain ⟨c, hc⟩ := exists_roundTo_natCast_eq (p := 53) (by decide) f
  rw [← spacing] at hc
  have hu : 0 < spacing f := Nat.two_pow_pos _
  have hd : 0 < 10 ^ 9 * spacing f := Nat.mul_pos (by decide) hu
  have hkeeps : KeepsWholeNanos f ↔
      ((wholeNanos f * 2 ^ 64 - 2 ^ (11 + Nat.log 2 (wholeNanos f - 1))) ⌈/⌉
        (10 ^ 9 * spacing f) : ℕ) * (spacing f : ℚ) ≤ roundTo 53 f :=
    (mul_le_roundTo_natCast_iff (by decide) rfl _).symm
  rw [wholeNanos_le_scaledNanos_iff hf, hkeeps, hc,
    mul_le_mul_iff_of_pos_right (by exact_mod_cast hu), Nat.cast_le, ceilDiv_le_iff_le_mul hd,
    sub_le_iff_le_add, Nat.sub_le_iff_le_add]
  norm_cast
  rw [show c * spacing f * 10 ^ 9 = 10 ^ 9 * spacing f * c by ring]

/-- The first fractions that are not. -/
example : ¬ KeepsWholeNanos 9007231536543121 := by decide

/-- Fractions that are whole nanoseconds lose nothing. -/
theorem scaledNanos_of_eq {f n : ℕ} (hf : f < 2 ^ 64) (h : f * 10 ^ 9 = n * 2 ^ 64) :
    scaledNanos f = n := by
  have hdvd : 2 ^ 55 ∣ f := by
    have hmul : f * 5 ^ 9 * 2 ^ 9 = 2 ^ 55 * n * 2 ^ 9 := by linarith
    have hcop : Nat.Coprime (2 ^ 55) (5 ^ 9) := Nat.Coprime.pow 55 9 (by decide)
    refine hcop.dvd_of_dvd_mul_right (Dvd.intro n ?_)
    exact Nat.eq_of_mul_eq_mul_right (by decide) hmul.symm
  obtain ⟨m, rfl⟩ := hdvd
  have hm : Representable 53 ((m : ℤ) * 2 ^ (55 : ℤ)) := by
    refine (representable_intCast (by decide) ?_).mul_zpow 55
    rw [Nat.abs_cast]
    omega
  have hround : roundTo 53 ((2 ^ 55 * m : ℕ) : ℚ) = (2 ^ 55 * m : ℕ) := by
    refine F64.roundTo_eq ?_
    norm_num at hm ⊢
    rwa [mul_comm]
  have hq : ((2 ^ 55 * m : ℕ) : ℚ) * 10 ^ 9 = n * 2 ^ 64 := by exact_mod_cast h
  rw [scaledNanos, hround, div_mul_eq_mul_div, hq, mul_div_cancel_right₀ _ (by norm_num)]
  exact F64.roundTo_natCast (by omega)

/-- The nanoseconds, cut to an integer, are within one of those of the
fractions exactly where the whole ones are kept. -/
theorem abs_floor_scaledNanos_sub_le_iff {f : ℕ} (hf : f < 2 ^ 64) :
    |(⌊scaledNanos f⌋ : ℚ) - f * 10 ^ 9 / 2 ^ 64| ≤ 1 ↔ KeepsWholeNanos f := by
  obtain ⟨-, -, -, hclose⟩ := scaledNanos_mem hf
  have hclose := abs_le.mp hclose
  have hfloor := Int.floor_le (scaledNanos f)
  have hwhole := wholeNanos_mem f
  rw [← wholeNanos_le_scaledNanos_iff_keeps hf, abs_le]
  constructor
  · rintro ⟨hlo, -⟩
    by_contra hlost
    have hlt : ⌊scaledNanos f⌋ < wholeNanos f := Int.floor_lt.mpr (by exact_mod_cast not_le.mp hlost)
    have hltq : (⌊scaledNanos f⌋ : ℚ) + 1 ≤ wholeNanos f := by
      exact_mod_cast Int.add_one_le_of_lt hlt
    -- the fractions are whole nanoseconds, which lose nothing
    have heq : f * 10 ^ 9 / 2 ^ 64 = (wholeNanos f : ℚ) := by linarith
    rw [div_eq_iff (by norm_num)] at heq
    exact hlost (scaledNanos_of_eq hf (by exact_mod_cast heq)).ge
  · intro h
    have hle : (wholeNanos f : ℤ) ≤ ⌊scaledNanos f⌋ := Int.le_floor.mpr (by exact_mod_cast h)
    have hleq : (wholeNanos f : ℚ) ≤ ⌊scaledNanos f⌋ := by exact_mod_cast hle
    constructor <;> linarith

/-- Few bits of a second lose nothing before the cut. -/
theorem scaledNanos_of_bits {m q : ℕ} (hm : m < 2 ^ q) (hq : q ≤ 23) :
    scaledNanos (m * 2 ^ (64 - q)) = ((m * 10 ^ 9 : ℕ) : ℚ) / (2 ^ q : ℕ) := by
  have hm23 : m < 2 ^ 23 := hm.trans_le (Nat.pow_le_pow_right (by decide) hq)
  have hpow : (2 : ℚ) ^ 64 = 2 ^ (64 - q) * 2 ^ q := by
    rw [← pow_add, Nat.sub_add_cancel (by omega)]
  have hround : roundTo 53 ((m * 2 ^ (64 - q) : ℕ) : ℚ) = m * 2 ^ (64 - q) := by
    have hrep : Representable 53 ((m : ℤ) * 2 ^ ((64 - q : ℕ) : ℤ)) :=
      (representable_intCast (by decide) (by rw [Nat.abs_cast]; omega)).mul_zpow _
    rw [Nat.cast_mul, Nat.cast_pow, Nat.cast_ofNat]
    rw [Int.cast_natCast, zpow_natCast] at hrep
    exact F64.roundTo_eq hrep
  have hscaled : roundTo 53 ((m * 2 ^ (64 - q) : ℕ) : ℚ) / 2 ^ 64 * 10 ^ 9 =
      ((m * 10 ^ 9 : ℕ) : ℚ) / (2 ^ q : ℕ) := by
    rw [hround, hpow]
    push_cast
    field_simp
    norm_num
  rw [scaledNanos, hscaled]
  have hrep : Representable 53 (((m * 10 ^ 9 : ℕ) : ℤ) * 2 ^ (-(q : ℤ))) :=
    (representable_intCast (by decide) (by rw [Nat.abs_cast]; omega)).mul_zpow _
  rw [zpow_neg, zpow_natCast, ← div_eq_mul_inv, Int.cast_natCast] at hrep
  refine F64.roundTo_eq ?_
  exact_mod_cast hrep

end LvInterop
