import Mathlib.Data.Int.Log
import Mathlib.Data.Rat.Floor
import Mathlib.Tactic.FieldSimp
import Mathlib.Tactic.Linarith
import Mathlib.Tactic.NormNum
import Mathlib.Tactic.Ring

/-!
# LvInterop.Lib.Rounding

Binary floating point as rational arithmetic followed by a rounding to `p`
significant bits, to the nearest number and from a tie to the even one.  The
exponent is not bounded.

Numbers of `p` bits are seen as points of grids `2^e ℤ`: near `q` they are the
points of the grid of `ulp p q`.  `roundTo` picks the nearest of all of them
(`abs_roundTo_sub_le_of_representable`), from which it follows that it keeps
what is representable and the order of representable bounds.
-/

namespace Lib

/-! ## rounding to integers -/

/-- Towards zero. -/
def trunc (q : ℚ) : ℤ := if 0 ≤ q then ⌊q⌋ else ⌈q⌉

/-- To the nearest integer, from a tie to the even one. -/
def roundEven (q : ℚ) : ℤ :=
  if q - ⌊q⌋ < 1 / 2 then ⌊q⌋
  else if 1 / 2 < q - ⌊q⌋ then ⌊q⌋ + 1
  else if ⌊q⌋ % 2 = 0 then ⌊q⌋ else ⌊q⌋ + 1

theorem trunc_of_nonneg {q : ℚ} (h : 0 ≤ q) : trunc q = ⌊q⌋ := if_pos h

theorem trunc_of_neg {q : ℚ} (h : q < 0) : trunc q = ⌈q⌉ := if_neg (not_le.mpr h)

@[simp] theorem trunc_intCast (n : ℤ) : trunc n = n := by simp [trunc]

/-- Truncation splits a number into two parts of its own sign. -/
theorem trunc_bounds (q : ℚ) :
    (0 ≤ q ∧ 0 ≤ trunc q ∧ (trunc q : ℚ) ≤ q ∧ q < trunc q + 1) ∨
      (q < 0 ∧ trunc q ≤ 0 ∧ q ≤ trunc q ∧ (trunc q : ℚ) < q + 1) := by
  by_cases h : 0 ≤ q
  · rw [trunc_of_nonneg h]
    exact .inl ⟨h, Int.floor_nonneg.mpr h, Int.floor_le q, Int.lt_floor_add_one q⟩
  · rw [trunc_of_neg (not_le.mp h)]
    refine .inr ⟨not_le.mp h, Int.ceil_le.mpr ?_, Int.le_ceil q, Int.ceil_lt_add_one q⟩
    exact_mod_cast (not_le.mp h).le

theorem abs_roundEven_sub_le (q : ℚ) : |(roundEven q : ℚ) - q| ≤ 1 / 2 := by
  have hlo := Int.floor_le q
  have hhi := Int.lt_floor_add_one q
  rw [abs_le, roundEven]
  split_ifs <;> push_cast <;> constructor <;> linarith

/-- No integer is closer. -/
theorem abs_roundEven_sub_le_of_int (q : ℚ) (n : ℤ) : |(roundEven q : ℚ) - q| ≤ |(n : ℚ) - q| := by
  have hlo := Int.floor_le q
  have hhi := Int.lt_floor_add_one q
  by_cases h : ⌊q⌋ < n
  · have hn : (⌊q⌋ : ℚ) + 1 ≤ n := by exact_mod_cast h
    rw [abs_of_nonneg (by linarith : (0 : ℚ) ≤ n - q), abs_le, roundEven]
    split_ifs <;> push_cast <;> constructor <;> linarith
  · have hn : (n : ℚ) ≤ ⌊q⌋ := by exact_mod_cast not_lt.mp h
    rw [abs_of_nonpos (by linarith : (n : ℚ) - q ≤ 0), abs_le, roundEven]
    split_ifs <;> push_cast <;> constructor <;> linarith

/-- The tie goes to the even one of its two neighbours. -/
theorem roundEven_sub_half (c : ℤ) :
    roundEven ((c : ℚ) - 1 / 2) = if c % 2 = 0 then c else c - 1 := by
  have hfloor : ⌊(c : ℚ) - 1 / 2⌋ = c - 1 := by
    rw [Int.floor_eq_iff]
    push_cast
    constructor <;> linarith
  have hhalf : (c : ℚ) - 1 / 2 - (c - 1 : ℤ) = 1 / 2 := by
    push_cast
    ring
  rw [roundEven, hfloor, hhalf, if_neg (lt_irrefl _), if_neg (lt_irrefl _)]
  split_ifs <;> omega

/-- Less than half a unit below an integer it is reached. -/
theorem le_roundEven_of_lt {c : ℤ} {q : ℚ} (h : (c : ℚ) - 1 / 2 < q) : c ≤ roundEven q := by
  have herr := abs_le.mp (abs_roundEven_sub_le q)
  by_contra hlt
  have hcast : (roundEven q : ℚ) ≤ c - 1 := by exact_mod_cast Int.le_sub_one_of_lt (not_le.mp hlt)
  linarith

/-- More than half a unit below it is not. -/
theorem sub_half_le_of_le_roundEven {c : ℤ} {q : ℚ} (h : c ≤ roundEven q) : (c : ℚ) - 1 / 2 ≤ q := by
  have herr := abs_le.mp (abs_roundEven_sub_le q)
  have hcast : (c : ℚ) ≤ roundEven q := by exact_mod_cast h
  linarith

/-- An even integer is reached from half a unit below. -/
theorem le_roundEven_iff {c : ℤ} (hc : c % 2 = 0) (q : ℚ) :
    c ≤ roundEven q ↔ (c : ℚ) - 1 / 2 ≤ q := by
  refine ⟨sub_half_le_of_le_roundEven, fun h => ?_⟩
  rcases eq_or_lt_of_le h with rfl | hlt
  · rw [roundEven_sub_half, if_pos hc]
  · exact le_roundEven_of_lt hlt

/-- An odd integer is not: the tie goes to the even one below it. -/
theorem le_roundEven_iff_of_odd {c : ℤ} (hc : c % 2 = 1) (q : ℚ) :
    c ≤ roundEven q ↔ (c : ℚ) - 1 / 2 < q := by
  refine ⟨fun h => ?_, le_roundEven_of_lt⟩
  rcases eq_or_lt_of_le (sub_half_le_of_le_roundEven h) with rfl | hlt
  · rw [roundEven_sub_half, if_neg (by omega)] at h
    omega
  · exact hlt

/-! ## grids -/

/-- A multiple of `2^e`. -/
def OnGrid (e : ℤ) (q : ℚ) : Prop := ∃ m : ℤ, q = m * 2 ^ e

theorem two_zpow_pos (e : ℤ) : (0 : ℚ) < 2 ^ e := zpow_pos (by norm_num) e

theorem two_zpow_le {d e : ℤ} (h : d ≤ e) : (2 : ℚ) ^ d ≤ 2 ^ e :=
  zpow_le_zpow_right₀ (by norm_num) h

theorem two_zpow_lt_iff {d e : ℤ} : (2 : ℚ) ^ d < 2 ^ e ↔ d < e :=
  zpow_lt_zpow_iff_right₀ (by norm_num)

theorem two_zpow_add (d e : ℤ) : (2 : ℚ) ^ (d + e) = 2 ^ d * 2 ^ e :=
  zpow_add₀ (by norm_num) d e

theorem onGrid_zero (e : ℤ) : OnGrid e 0 := ⟨0, by simp⟩

theorem onGrid_zpow (e : ℤ) : OnGrid e (2 ^ e) := ⟨1, by simp⟩

theorem OnGrid.neg {e : ℤ} {q : ℚ} (h : OnGrid e q) : OnGrid e (-q) := by
  obtain ⟨m, rfl⟩ := h
  exact ⟨-m, by push_cast; ring⟩

theorem OnGrid.add {e : ℤ} {q r : ℚ} (hq : OnGrid e q) (hr : OnGrid e r) : OnGrid e (q + r) := by
  obtain ⟨m, rfl⟩ := hq
  obtain ⟨n, rfl⟩ := hr
  exact ⟨m + n, by push_cast; ring⟩

theorem OnGrid.sub {e : ℤ} {q r : ℚ} (hq : OnGrid e q) (hr : OnGrid e r) : OnGrid e (q - r) := by
  rw [sub_eq_add_neg]
  exact hq.add hr.neg

/-- A grid contains every coarser one. -/
theorem OnGrid.mono {d e : ℤ} (h : d ≤ e) {q : ℚ} (hq : OnGrid e q) : OnGrid d q := by
  obtain ⟨m, rfl⟩ := hq
  obtain ⟨n, rfl⟩ : ∃ n : ℕ, e = n + d := ⟨(e - d).toNat, by omega⟩
  refine ⟨m * 2 ^ n, ?_⟩
  rw [two_zpow_add, zpow_natCast]
  push_cast
  ring

/-- Integers are on every grid that divides the unit. -/
theorem onGrid_intCast {e : ℤ} (h : e ≤ 0) (n : ℤ) : OnGrid e n :=
  OnGrid.mono h ⟨n, by simp⟩

/-- Points of a grid are its spacing apart. -/
theorem OnGrid.eq_of_abs_sub_lt {e : ℤ} {q r : ℚ} (hq : OnGrid e q) (hr : OnGrid e r)
    (h : |q - r| < 2 ^ e) : q = r := by
  obtain ⟨m, hm⟩ := hq.sub hr
  rw [hm, abs_mul, abs_of_pos (two_zpow_pos e)] at h
  have hlt : |(m : ℚ)| < 1 := by
    by_contra hc
    have hmul := mul_le_mul_of_nonneg_right (not_lt.mp hc) (two_zpow_pos e).le
    linarith
  have hz : m = 0 := by
    rw [← Int.abs_lt_one_iff]
    exact_mod_cast hlt
  rw [hz, Int.cast_zero, zero_mul] at hm
  linarith

/-- A point of a grid that divides the unit, by its whole and its fractional part. -/
theorem OnGrid.exists_parts {z : ℚ} {q : ℕ} (hz : 0 ≤ z) (h : OnGrid (-q) z) :
    ∃ n m : ℕ, m < 2 ^ q ∧ z = n + (m : ℚ) / 2 ^ q := by
  obtain ⟨j, rfl⟩ := h
  rw [zpow_neg, zpow_natCast] at hz ⊢
  have hpos : 0 < 2 ^ q := Nat.two_pow_pos q
  have hq : (0 : ℚ) < 2 ^ q := by exact_mod_cast hpos
  have hj : 0 ≤ j := by exact_mod_cast nonneg_of_mul_nonneg_left hz (inv_pos.mpr hq)
  lift j to ℕ using hj
  refine ⟨j / 2 ^ q, j % 2 ^ q, Nat.mod_lt _ hpos, ?_⟩
  have hsplit : (j : ℚ) = (2 ^ q : ℚ) * (j / 2 ^ q : ℕ) + (j % 2 ^ q : ℕ) := by
    exact_mod_cast (Nat.div_add_mod j (2 ^ q)).symm
  rw [Int.cast_natCast, hsplit, ← div_eq_mul_inv, add_div, mul_div_cancel_left₀ _ hq.ne']

/-! ## numbers of `p` bits -/

/-- An integer of `p` bits times a power of two. -/
def Representable (p : ℕ) (q : ℚ) : Prop := ∃ e : ℤ, OnGrid e q ∧ |q| < 2 ^ (p + e)

variable {p : ℕ} {q : ℚ}

theorem representable_zero (p : ℕ) : Representable p 0 :=
  ⟨0, onGrid_zero 0, by rw [abs_zero]; exact two_zpow_pos _⟩

theorem Representable.neg (h : Representable p q) : Representable p (-q) := by
  obtain ⟨e, hgrid, hlt⟩ := h
  exact ⟨e, hgrid.neg, by rwa [abs_neg]⟩

theorem representable_zpow (hp : 0 < p) (e : ℤ) : Representable p (2 ^ e) := by
  refine ⟨e, onGrid_zpow e, ?_⟩
  rw [abs_of_pos (two_zpow_pos e), two_zpow_lt_iff]
  omega

theorem representable_of_abs_eq_zpow (hp : 0 < p) {e : ℤ} (h : |q| = 2 ^ e) : Representable p q := by
  rcases abs_choice q with hq | hq
  · rw [← hq, h]
    exact representable_zpow hp e
  · rw [← neg_neg q, ← hq, h]
    exact (representable_zpow hp e).neg

/-- `2^p` itself is a power of two. -/
theorem OnGrid.representable (hp : 0 < p) {e : ℤ} (hgrid : OnGrid e q) (hle : |q| ≤ 2 ^ (p + e)) :
    Representable p q := by
  rcases lt_or_eq_of_le hle with hlt | heq
  · exact ⟨e, hgrid, hlt⟩
  · exact representable_of_abs_eq_zpow hp heq

/-- A number of `p` bits from `2^k` on is a multiple of the spacing there. -/
theorem Representable.onGrid (h : Representable p q) {k : ℤ} (hk : 2 ^ k ≤ |q|) :
    OnGrid (k + 1 - p) q := by
  obtain ⟨e, hgrid, hlt⟩ := h
  have hexp : k < p + e := two_zpow_lt_iff.mp (lt_of_le_of_lt hk hlt)
  exact hgrid.mono (by omega)

/-- Scaling by a power of two changes no digit. -/
theorem Representable.mul_zpow (h : Representable p q) (k : ℤ) : Representable p (q * 2 ^ k) := by
  obtain ⟨e, ⟨m, rfl⟩, hlt⟩ := h
  refine ⟨e + k, ⟨m, by rw [two_zpow_add]; ring⟩, ?_⟩
  rw [abs_mul, abs_of_pos (two_zpow_pos k), ← add_assoc, two_zpow_add]
  exact mul_lt_mul_of_pos_right hlt (two_zpow_pos k)

/-- Integers of at most `p` bits. -/
theorem representable_intCast (hp : 0 < p) {n : ℤ} (h : |n| ≤ 2 ^ p) : Representable p n := by
  refine (onGrid_intCast (le_refl 0) n).representable hp ?_
  rw [add_zero, zpow_natCast]
  exact_mod_cast h

/-- The integral and the fractional part of a number of `p` bits. -/
theorem Representable.trunc_parts (h : Representable p q) :
    Representable p (trunc q) ∧ Representable p (q - trunc q) := by
  obtain ⟨e, hgrid, hlt⟩ := h
  by_cases he : 0 ≤ e
  · obtain ⟨n, hn⟩ := hgrid.mono he
    rw [zpow_zero, mul_one] at hn
    rw [hn, trunc_intCast, sub_self, ← hn]
    exact ⟨⟨e, hgrid, hlt⟩, representable_zero p⟩
  · have habs : |(trunc q : ℚ)| ≤ |q| ∧ |q - trunc q| ≤ |q| := by
      obtain ⟨hq, ht, hle, -⟩ | ⟨hq, ht, hle, -⟩ := trunc_bounds q
      · have ht' : (0 : ℚ) ≤ trunc q := by exact_mod_cast ht
        rw [abs_of_nonneg ht', abs_of_nonneg hq, abs_of_nonneg (by linarith)]
        exact ⟨hle, by linarith⟩
      · have ht' : (trunc q : ℚ) ≤ 0 := by exact_mod_cast ht
        rw [abs_of_nonpos ht', abs_of_neg hq, abs_of_nonpos (by linarith)]
        exact ⟨by linarith, by linarith⟩
    have hint := onGrid_intCast (not_le.mp he).le (trunc q)
    exact ⟨⟨e, hint, lt_of_le_of_lt habs.1 hlt⟩, ⟨e, hgrid.sub hint, lt_of_le_of_lt habs.2 hlt⟩⟩

/-! ## rounding to `p` bits -/

/-- The spacing of the numbers of `p` bits around `q`. -/
def ulp (p : ℕ) (q : ℚ) : ℚ := 2 ^ (Int.log 2 |q| + 1 - p)

/-- To the nearest number of `p` bits, from a tie to the even one. -/
def roundTo (p : ℕ) (q : ℚ) : ℚ := roundEven (q / ulp p q) * ulp p q

theorem ulp_pos (p : ℕ) (q : ℚ) : 0 < ulp p q := two_zpow_pos _

theorem two_zpow_log_le (h : q ≠ 0) : (2 : ℚ) ^ Int.log 2 |q| ≤ |q| := by
  exact_mod_cast Int.zpow_log_le_self (by norm_num : 1 < 2) (abs_pos.mpr h)

theorem lt_two_zpow_log (q : ℚ) : |q| < 2 ^ (Int.log 2 |q| + 1) := by
  exact_mod_cast Int.lt_zpow_succ_log_self (by norm_num : 1 < 2) |q|

/-- The spacing between `2^k` and `2^(k+1)`. -/
theorem ulp_eq {k : ℤ} (hlo : 2 ^ k ≤ |q|) (hhi : |q| < 2 ^ (k + 1)) :
    ulp p q = 2 ^ (k + 1 - p) := by
  have hne : q ≠ 0 := fun h => by
    rw [h, abs_zero] at hlo
    exact absurd hlo (not_le.mpr (two_zpow_pos k))
  have h₁ := two_zpow_lt_iff.mp (lt_of_le_of_lt hlo (lt_two_zpow_log q))
  have h₂ := two_zpow_lt_iff.mp (lt_of_le_of_lt (two_zpow_log_le hne) hhi)
  rw [ulp, show Int.log 2 |q| = k by omega]

theorem roundTo_zero (p : ℕ) : roundTo p 0 = 0 := by
  simp [roundTo, roundEven]

/-- An error measured in units of the spacing. -/
theorem abs_mul_sub {u : ℚ} (hu : 0 < u) (a q : ℚ) : |a * u - q| = |a - q / u| * u := by
  rw [← abs_of_pos hu, ← abs_mul, abs_of_pos hu, sub_mul, div_mul_cancel₀ q hu.ne']

theorem abs_roundTo_sub_le_ulp (p : ℕ) (q : ℚ) : |roundTo p q - q| ≤ ulp p q / 2 := by
  have hu := ulp_pos p q
  rw [roundTo, abs_mul_sub hu]
  have h := mul_le_mul_of_nonneg_right (abs_roundEven_sub_le (q / ulp p q)) hu.le
  linarith

/-- Within a binade the result is a multiple of the spacing there. -/
theorem onGrid_roundTo {k : ℤ} (hk : 2 ^ k ≤ |q|) : OnGrid (k + 1 - p) (roundTo p q) := by
  have hlog := two_zpow_lt_iff.mp (lt_of_le_of_lt hk (lt_two_zpow_log q))
  exact OnGrid.mono (by omega) ⟨roundEven (q / ulp p q), rfl⟩

/-- **Nearest**: no number of `p` bits is closer to `q`. -/
theorem abs_roundTo_sub_le_of_representable (hp : 0 < p) {x : ℚ} (hx : Representable p x) :
    |roundTo p q - q| ≤ |x - q| := by
  by_cases hq : q = 0
  · rw [hq, roundTo_zero, sub_zero, abs_zero]
    exact abs_nonneg _
  have hu := ulp_pos p q
  have hgrid : ∀ y, OnGrid (Int.log 2 |q| + 1 - p) y → |roundTo p q - q| ≤ |y - q| := by
    rintro y ⟨m, rfl⟩
    have h := mul_le_mul_of_nonneg_right (abs_roundEven_sub_le_of_int (q / ulp p q) m) hu.le
    rw [← abs_mul_sub hu, ← abs_mul_sub hu] at h
    exact h
  have hlog := two_zpow_log_le hq
  rcases le_or_gt (2 ^ Int.log 2 |q|) |x| with h | h
  · exact hgrid x (hx.onGrid h)
  · -- the power of two below `|q|` lies between `x` and `q`
    have hpow : OnGrid (Int.log 2 |q| + 1 - p) (2 ^ Int.log 2 |q|) :=
      (onGrid_zpow _).mono (by omega)
    obtain ⟨hlo, hhi⟩ := abs_lt.mp h
    rcases lt_or_gt_of_ne hq with hneg | hpos
    · refine (hgrid _ hpow.neg).trans ?_
      rw [abs_of_neg hneg] at hlog hlo ⊢
      rw [abs_of_nonneg (by linarith), abs_of_nonneg (by linarith)]
      linarith
    · refine (hgrid _ hpow).trans ?_
      rw [abs_of_pos hpos] at hlog hhi ⊢
      rw [abs_of_nonpos (by linarith), abs_of_nonpos (by linarith)]
      linarith

/-- What is representable is kept. -/
theorem roundTo_of_representable (hp : 0 < p) (h : Representable p q) : roundTo p q = q := by
  have hle := abs_roundTo_sub_le_of_representable (q := q) hp h
  rw [sub_self, abs_zero] at hle
  exact sub_eq_zero.mp (abs_nonpos_iff.mp hle)

/-- A lower bound of `p` bits is kept. -/
theorem le_roundTo (hp : 0 < p) {x : ℚ} (hx : Representable p x) (h : x ≤ q) : x ≤ roundTo p q := by
  by_contra hc
  have hle := abs_roundTo_sub_le_of_representable (q := q) hp hx
  rw [abs_of_nonpos (by linarith), abs_of_nonpos (by linarith)] at hle
  linarith

/-- An upper bound of `p` bits is kept. -/
theorem roundTo_le (hp : 0 < p) {x : ℚ} (hx : Representable p x) (h : q ≤ x) : roundTo p q ≤ x := by
  by_contra hc
  have hle := abs_roundTo_sub_le_of_representable (q := q) hp hx
  rw [abs_of_nonneg (by linarith), abs_of_nonneg (by linarith)] at hle
  linarith

theorem representable_roundTo (hp : 0 < p) (q : ℚ) : Representable p (roundTo p q) := by
  by_cases hq : q = 0
  · rw [hq, roundTo_zero]
    exact representable_zero p
  have hlt := abs_lt.mp (lt_two_zpow_log q)
  have hpow := representable_zpow hp (Int.log 2 |q| + 1)
  have hhi := roundTo_le hp hpow hlt.2.le
  have hlo := le_roundTo hp hpow.neg hlt.1.le
  refine (onGrid_roundTo (two_zpow_log_le hq)).representable hp ?_
  rw [show (p : ℤ) + (Int.log 2 |q| + 1 - p) = Int.log 2 |q| + 1 by ring]
  exact abs_le.mpr ⟨hlo, hhi⟩

/-- Up to `2^k` the error is at most half the spacing below it. -/
theorem abs_roundTo_sub_le (hp : 0 < p) {k : ℤ} (h : |q| ≤ 2 ^ k) :
    |roundTo p q - q| ≤ 2 ^ (k - 1 - p) := by
  rcases lt_or_eq_of_le h with hlt | heq
  · by_cases hq : q = 0
    · rw [hq, roundTo_zero, sub_zero, abs_zero]
      exact (two_zpow_pos _).le
    · have hlog := two_zpow_lt_iff.mp (lt_of_le_of_lt (two_zpow_log_le hq) hlt)
      have hulp : ulp p q ≤ 2 ^ (k - 1 - p + 1) := two_zpow_le (by omega)
      have herr := abs_roundTo_sub_le_ulp p q
      rw [two_zpow_add, zpow_one] at hulp
      linarith
  · rw [roundTo_of_representable hp (representable_of_abs_eq_zpow hp heq), sub_self, abs_zero]
    exact (two_zpow_pos _).le

/-- Close to a point of the grid the result is that point. -/
theorem roundTo_eq_of_close (hp : 0 < p) {k : ℤ} {g : ℚ} (hlo : 2 ^ k ≤ |q|)
    (hhi : |q| ≤ 2 ^ (k + 1)) (hg : OnGrid (k + 1 - p) g) (hclose : |q - g| < 2 ^ (k - p)) :
    roundTo p q = g := by
  refine (onGrid_roundTo hlo).eq_of_abs_sub_lt hg ?_
  have herr := abs_roundTo_sub_le hp hhi
  have htri := abs_sub_le (roundTo p q) q g
  rw [show k + 1 - 1 - (p : ℤ) = k - p by ring] at herr
  rw [show k + 1 - (p : ℤ) = (k - p) + 1 by ring, two_zpow_add, zpow_one]
  linarith

/-- An even point of the grid is reached from half the spacing below. -/
theorem le_roundTo_iff {k c : ℤ} (hc : c % 2 = 0) (hlo : 2 ^ k ≤ |q|) (hhi : |q| < 2 ^ (k + 1)) :
    c * 2 ^ (k + 1 - p) ≤ roundTo p q ↔ c * 2 ^ (k + 1 - p) - 2 ^ (k - p) ≤ q := by
  have hu : (0 : ℚ) < 2 ^ (k + 1 - (p : ℤ)) := two_zpow_pos _
  have hhalf : (2 : ℚ) ^ (k + 1 - (p : ℤ)) = 2 * 2 ^ (k - (p : ℤ)) := by
    rw [show k + 1 - (p : ℤ) = 1 + (k - p) by ring, two_zpow_add, zpow_one]
  rw [roundTo, ulp_eq hlo hhi, mul_le_mul_iff_of_pos_right hu, Int.cast_le, le_roundEven_iff hc,
    le_div_iff₀ hu, sub_mul, hhalf]
  constructor
  · intro h
    linarith
  · intro h
    linarith

/-! ## natural numbers -/

/-- Natural numbers of at most `p` bits are not rounded. -/
theorem roundTo_natCast_of_le (hp : 0 < p) {f : ℕ} (hf : f ≤ 2 ^ p) : roundTo p f = f := by
  have habs : |(f : ℤ)| ≤ 2 ^ p := by
    rw [Nat.abs_cast]
    exact_mod_cast hf
  exact_mod_cast roundTo_of_representable hp (representable_intCast hp habs)

/-- A natural number of fewer bits is reached from half the spacing below. -/
theorem natCast_le_roundTo_iff {k n : ℕ} (hk : k + 1 < p) (hlo : 2 ^ k ≤ q) (hlt : q < n)
    (hn : n ≤ 2 ^ (k + 1)) : (n : ℚ) ≤ roundTo p q ↔ n - 2 ^ ((k : ℤ) - p) ≤ q := by
  obtain ⟨j, hj⟩ : ∃ j, p = k + 2 + j := ⟨p - (k + 2), by omega⟩
  have hpos : 0 ≤ q := (pow_nonneg (by norm_num) k).trans hlo
  have hnq : (n : ℚ) ≤ 2 ^ (k + 1) := by exact_mod_cast hn
  have hround := le_roundTo_iff (p := p) (k := k) (c := n * 2 ^ (j + 1)) (q := q) ?_ ?_ ?_
  · have hpoint : ((n * 2 ^ (j + 1) : ℤ) : ℚ) * 2 ^ ((k : ℤ) + 1 - p) = n := by
      rw [show (k : ℤ) + 1 - p = -((j + 1 : ℕ) : ℤ) by omega, zpow_neg, zpow_natCast]
      push_cast
      exact mul_inv_cancel_right₀ (by positivity) _
    rwa [hpoint] at hround
  · rw [pow_succ, ← mul_assoc, Int.mul_emod_left]
  · rw [abs_of_nonneg hpos]
    exact_mod_cast hlo
  · rw [abs_of_nonneg hpos]
    exact_mod_cast hlt.trans_le hnq

/-- The spacing around a longer one. -/
theorem ulp_natCast {f : ℕ} (hf : 2 ^ p ≤ f) : ulp p f = (2 ^ (Nat.log 2 f + 1 - p) : ℕ) := by
  have hne : f ≠ 0 := fun h => absurd (h ▸ hf) (not_le.mpr (Nat.two_pow_pos p))
  have hexp : p ≤ Nat.log 2 f := Nat.le_log_of_pow_le (by omega) hf
  rw [ulp_eq (k := Nat.log 2 f), Nat.cast_pow, ← zpow_natCast, Nat.cast_sub (by omega)]
  · push_cast
    rfl
  · rw [Nat.abs_cast, zpow_natCast]
    exact_mod_cast Nat.pow_log_le_self 2 hne
  · rw [Nat.abs_cast]
    exact_mod_cast Nat.lt_pow_succ_log_self (by omega) f

/-- A natural number is rounded to a multiple of the spacing. -/
theorem exists_roundTo_natCast_eq (hp : 0 < p) (f : ℕ) :
    ∃ c : ℕ, roundTo p f = c * (2 ^ (Nat.log 2 f + 1 - p) : ℕ) := by
  rcases lt_or_ge f (2 ^ p) with hf | hf
  · refine ⟨f, ?_⟩
    have hlog := Nat.log_lt_of_lt_pow' (by omega) hf
    rw [roundTo_natCast_of_le hp hf.le, show Nat.log 2 f + 1 - p = 0 by omega, pow_zero,
      Nat.cast_one, mul_one]
  · have hpos := ulp_pos p f
    have hround : 0 ≤ roundTo p f := le_roundTo hp (representable_zero p) (Nat.cast_nonneg f)
    rw [roundTo] at hround
    have hcast : 0 ≤ roundEven (f / ulp p f) := by
      exact_mod_cast nonneg_of_mul_nonneg_left hround hpos
    refine ⟨(roundEven (f / ulp p f)).toNat, ?_⟩
    rw [roundTo, ← ulp_natCast hf, ← Int.cast_natCast (roundEven _).toNat,
      Int.toNat_of_nonneg hcast]

/-- Which multiples of the spacing a natural number is rounded up to, or
beyond: its distance to the midpoint below decides, and at the midpoint whether
the multiple is even. -/
theorem mul_le_roundTo_natCast_iff (hp : 0 < p) {f u : ℕ} (hu : u = 2 ^ (Nat.log 2 f + 1 - p))
    (c : ℕ) : (c : ℚ) * u ≤ roundTo p f ↔ 2 * (c * u) + c % 2 ≤ 2 * f + u := by
  rcases lt_or_ge f (2 ^ p) with hf | hf
  · have hlog := Nat.log_lt_of_lt_pow' (by omega) hf
    have hone : u = 1 := by
      rw [hu, show Nat.log 2 f + 1 - p = 0 by omega, pow_zero]
    rw [roundTo_natCast_of_le hp hf.le, hone, Nat.cast_one, mul_one, Nat.cast_le]
    omega
  · have hulp : ulp p f = u := hu ▸ ulp_natCast hf
    have hpos : (0 : ℚ) < u := hulp ▸ ulp_pos p f
    rw [roundTo, hulp, mul_le_mul_iff_of_pos_right hpos, ← Int.cast_natCast c, Int.cast_le]
    rcases Nat.mod_two_eq_zero_or_one c with hc | hc
    · rw [le_roundEven_iff (by omega), le_div_iff₀ hpos, hc]
      constructor
      · intro h
        have hcast : (2 * (c * u) : ℚ) ≤ 2 * f + u := by push_cast at h; linarith
        exact_mod_cast hcast
      · intro h
        have hcast : (2 * (c * u) : ℚ) ≤ 2 * f + u := by exact_mod_cast h
        push_cast
        linarith
    · rw [le_roundEven_iff_of_odd (by omega), lt_div_iff₀ hpos, hc, Nat.succ_le_iff]
      constructor
      · intro h
        have hcast : (2 * (c * u) : ℚ) < 2 * f + u := by push_cast at h; linarith
        exact_mod_cast hcast
      · intro h
        have hcast : (2 * (c * u) : ℚ) < 2 * f + u := by exact_mod_cast h
        push_cast
        linarith

end Lib
