import LvInterop.Lib.Rounding

/-!
# LvInterop.Lib.RoundingOrder

Rounding and order: rounding is monotone, and it stays on a grid.

Adding at most one to an integer that was rounded does not overtake the next
integer once that is rounded too (`roundTo_add_le`): a tie between neighbours
that are two apart goes to the even one on either side.  The one exception is
the integer just below `-2^p`, where the spacing halves.
-/

namespace Lib

variable {p : ℕ} {q r : ℚ}

/-! ## order -/

/-- The greater of two numbers is not farther only above the midpoint. -/
theorem add_le_of_abs_sub_le {a b : ℚ} (h : a < b) (habs : |b - q| ≤ |a - q|) : a + b ≤ 2 * q := by
  have hsq := sq_le_sq.mpr habs
  by_contra hc
  have hpos : 0 < (b - a) * (a + b - 2 * q) := mul_pos (by linarith) (by linarith)
  linarith [show (b - a) * (a + b - 2 * q) = (b - q) ^ 2 - (a - q) ^ 2 by ring]

/-- The smaller one is not farther only below it. -/
theorem le_add_of_abs_sub_le {a b : ℚ} (h : a < b) (habs : |a - q| ≤ |b - q|) : 2 * q ≤ a + b := by
  have hsq := sq_le_sq.mpr habs
  by_contra hc
  have hpos : 0 < (b - a) * (2 * q - (a + b)) := mul_pos (by linarith) (by linarith)
  linarith [show (b - a) * (2 * q - (a + b)) = (a - q) ^ 2 - (b - q) ^ 2 by ring]

/-- **Rounding keeps the order.** -/
theorem roundTo_mono (hp : 0 < p) (h : q ≤ r) : roundTo p q ≤ roundTo p r := by
  rcases eq_or_lt_of_le h with rfl | hlt
  · exact le_rfl
  by_contra hc
  have hq := abs_roundTo_sub_le_of_representable (q := q) hp (representable_roundTo hp r)
  have hr := abs_roundTo_sub_le_of_representable (q := r) hp (representable_roundTo hp q)
  have hlo := add_le_of_abs_sub_le (not_le.mp hc) hq
  have hhi := le_add_of_abs_sub_le (not_le.mp hc) hr
  linarith

/-- Rounding does not leave a grid. -/
theorem OnGrid.roundTo (hp : 0 < p) {e : ℤ} (h : OnGrid e q) : OnGrid e (roundTo p q) := by
  rcases le_or_gt |q| (2 ^ (p + e)) with hle | hgt
  · rwa [roundTo_of_representable hp (h.representable hp hle)]
  · have hgrid := onGrid_roundTo (p := p) (k := p + e) hgt.le
    exact hgrid.mono (by omega)

/-- An odd point of the grid is not reached from half the spacing below. -/
theorem le_roundTo_iff_of_odd {k c : ℤ} (hc : c % 2 = 1) (hlo : 2 ^ k ≤ |q|)
    (hhi : |q| < 2 ^ (k + 1)) :
    c * 2 ^ (k + 1 - p) ≤ roundTo p q ↔ c * 2 ^ (k + 1 - p) - 2 ^ (k - p) < q := by
  have hu : (0 : ℚ) < 2 ^ (k + 1 - (p : ℤ)) := two_zpow_pos _
  have hhalf : (2 : ℚ) ^ (k + 1 - (p : ℤ)) = 2 * 2 ^ (k - (p : ℤ)) := by
    rw [show k + 1 - (p : ℤ) = 1 + (k - p) by ring, two_zpow_add, zpow_one]
  rw [Lib.roundTo, ulp_eq hlo hhi, mul_le_mul_iff_of_pos_right hu, Int.cast_le,
    le_roundEven_iff_of_odd hc, lt_div_iff₀ hu, sub_mul, hhalf]
  constructor
  · intro h
    linarith
  · intro h
    linarith

/-! ## a sum of a rounded integer -/

/-- Points of the even grid, as integers. -/
theorem OnGrid.exists_even (h : OnGrid 1 q) : ∃ m : ℤ, q = 2 * m := by
  obtain ⟨m, hm⟩ := h
  exact ⟨m, by rw [hm, zpow_one]; ring⟩

/-- Numbers of `p` bits from `2^p` on are even. -/
theorem Representable.exists_even (h : Representable p q) (hq : 2 ^ p ≤ |q|) : ∃ m : ℤ, q = 2 * m := by
  have hgrid := h.onGrid (k := p) (by rwa [zpow_natCast])
  rw [show (p : ℤ) + 1 - p = 1 by ring] at hgrid
  exact hgrid.exists_even

/-- And multiples of four from `2^(p+1)` on. -/
theorem Representable.exists_four (h : Representable p q) (hq : 2 ^ (p + 1) ≤ |q|) :
    ∃ m : ℤ, q = 4 * m := by
  have hgrid := h.onGrid (k := p + 1) (by exact_mod_cast hq)
  rw [show (p : ℤ) + 1 + 1 - p = 2 by ring] at hgrid
  obtain ⟨m, hm⟩ := hgrid
  exact ⟨m, by rw [hm]; norm_num; ring⟩

/-- A tie that goes up from an even number goes to an even multiple of two. -/
theorem odd_of_tie_up {m : ℤ} (hlo : 2 ^ p ≤ |2 * m + 1|) (hhi : |2 * m + 1| < 2 ^ (p + 1))
    (h : (2 * m + 2 : ℚ) ≤ roundTo p (2 * m + 1)) : m % 2 = 1 := by
  by_contra hm
  have htie := (le_roundTo_iff_of_odd (p := p) (k := p) (c := m + 1) (q := 2 * m + 1) (by omega)
    (by exact_mod_cast hlo) (by exact_mod_cast hhi)).mp
  rw [show (p : ℤ) + 1 - p = 1 by ring, sub_self, zpow_one, zpow_zero] at htie
  push_cast at htie
  linarith [htie (by linarith)]

/-- And so does one that goes up to it. -/
theorem even_of_tie_up {m : ℤ} (hlo : 2 ^ p ≤ |2 * m - 1|) (hhi : |2 * m - 1| < 2 ^ (p + 1))
    (h : (2 * m : ℚ) ≤ roundTo p (2 * m - 1)) : m % 2 = 0 := by
  by_contra hm
  have htie := (le_roundTo_iff_of_odd (p := p) (k := p) (c := m) (q := 2 * m - 1) (by omega)
    (by exact_mod_cast hlo) (by exact_mod_cast hhi)).mp
  rw [show (p : ℤ) + 1 - p = 1 by ring, sub_self, zpow_one, zpow_zero] at htie
  linarith [htie (by linarith)]

/-- Even integers of `p + 1` bits. -/
theorem representable_even (hp : 0 < p) {m : ℤ} (h : |2 * m| ≤ 2 ^ (p + 1)) :
    Representable p (2 * m : ℚ) := by
  have hgrid : OnGrid 1 (2 * m : ℚ) := ⟨m, by rw [zpow_one]; ring⟩
  exact hgrid.representable hp (by exact_mod_cast h)

/-- An integer that is rounded up to an even one is next to it. -/
theorem eq_of_roundTo_eq_even (hp : 0 < p) {s m : ℤ} (hx : roundTo p s = 2 * m) (hlt : s < 2 * m)
    (habs : |2 * (m - 1)| ≤ 2 ^ (p + 1)) : s = 2 * m - 1 := by
  by_contra hne
  have hle : (s : ℚ) ≤ 2 * (m - 1 : ℤ) := by exact_mod_cast (by omega : s ≤ 2 * (m - 1))
  have hround := roundTo_le hp (representable_even hp habs) hle
  rw [hx] at hround
  push_cast at hround
  linarith

/-- A sum that is rounded past an even number is a tie, and the number is not a
multiple of four. -/
theorem tie_of_lt_roundTo (hp : 0 < p) {m : ℤ} {d : ℚ} (hx : Representable p (2 * m : ℚ))
    (hd : 0 ≤ d) (hd' : d ≤ 1) (hlt : (2 * m : ℚ) < roundTo p (2 * m + d))
    (hm : 2 ^ p ≤ |2 * m|) (hy : 2 ^ p ≤ |roundTo p (2 * m + d)|) :
    m % 2 = 1 ∧ (|2 * m| < 2 ^ (p + 1) ∨ |2 * m + 2| < 2 ^ (p + 1)) ∧ 2 ^ p ≤ |2 * m + 2| := by
  have hrep := representable_roundTo hp (2 * m + d)
  have hnear := abs_roundTo_sub_le_of_representable (q := 2 * m + d) hp hx
  obtain ⟨n, hn⟩ := hrep.exists_even hy
  rw [hn] at hlt hnear
  have hmn : m + 1 ≤ n := by exact_mod_cast (by linarith : (m : ℚ) < n)
  have hmn' : (m : ℚ) + 1 ≤ n := by exact_mod_cast hmn
  have hle := (le_abs_self _).trans hnear
  rw [sub_add_cancel_left, abs_neg, abs_of_nonneg hd] at hle
  obtain rfl : d = 1 := le_antisymm hd' (by linarith)
  obtain rfl : n = m + 1 := le_antisymm (by exact_mod_cast (by linarith : (n : ℚ) ≤ m + 1)) hmn
  push_cast at hn
  rw [hn] at hy hrep
  have hy' : 2 ^ p ≤ |2 * m + 2| := by
    rw [show 2 * m + 2 = 2 * (m + 1) by ring]
    exact_mod_cast hy
  have hbound : |2 * m| < 2 ^ (p + 1) ∨ |2 * m + 2| < 2 ^ (p + 1) := by
    by_contra hc
    obtain ⟨hc₁, hc₂⟩ := not_or.mp hc
    obtain ⟨a, ha⟩ := hx.exists_four (by exact_mod_cast not_lt.mp hc₁)
    obtain ⟨b, hb⟩ := hrep.exists_four (by
      rw [show (2 * (m + 1) : ℚ) = ((2 * m + 2 : ℤ) : ℚ) by push_cast; ring]
      exact_mod_cast not_lt.mp hc₂)
    have ha' : 2 * m = 4 * a := by exact_mod_cast ha
    have hb' : 2 * (m + 1) = 4 * b := by exact_mod_cast hb
    omega
  have hpow : (2 : ℤ) ^ (p + 1) = 2 * 2 ^ p := by ring
  have htwo : (2 : ℤ) ≤ 2 ^ p := by
    calc (2 : ℤ) = 2 ^ 1 := by norm_num
      _ ≤ 2 ^ p := pow_le_pow_right₀ (by norm_num) hp
  refine ⟨odd_of_tie_up (p := p) ?_ ?_ (by rw [hn]; linarith), hbound, hy'⟩
  · rw [le_abs] at hm hy' ⊢
    omega
  · rw [abs_lt]
    rw [abs_lt, abs_lt] at hbound
    rw [le_abs] at hm hy'
    omega

/-- Just above `-2^p` the spacing is one. -/
theorem roundTo_neg_pow_add_le (hp : 0 < p) {d : ℚ} (hd : 0 ≤ d) (hd' : d ≤ 1 / 2) :
    roundTo p (-2 ^ p + d) ≤ -2 ^ p := by
  have hpow : (2 : ℚ) ^ p = 2 * 2 ^ ((p : ℤ) - 1) := by
    rw [← zpow_one_add₀ (by norm_num), ← zpow_natCast]
    congr 1
    omega
  have hone : (1 : ℚ) ≤ 2 ^ ((p : ℤ) - 1) := by
    rw [← zpow_zero (2 : ℚ)]
    exact two_zpow_le (by omega)
  rcases eq_or_lt_of_le hd with rfl | hpos
  · have hrep := (representable_zpow hp (p : ℤ)).neg
    rw [zpow_natCast] at hrep
    rw [add_zero, roundTo_of_representable hp hrep]
  have habs : |(-2 ^ p + d : ℚ)| = 2 ^ p - d := by
    rw [abs_of_nonpos (by linarith)]
    ring
  have hlo : 2 ^ ((p : ℤ) - 1) ≤ |(-2 ^ p + d : ℚ)| := by
    rw [habs]
    linarith
  have hhi : |(-2 ^ p + d : ℚ)| < 2 ^ ((p : ℤ) - 1 + 1) := by
    rw [habs, sub_add_cancel, zpow_natCast]
    linarith
  have hodd : (-2 ^ p + 1 : ℤ) % 2 = 1 := by
    obtain ⟨j, rfl⟩ : ∃ j, p = j + 1 := ⟨p - 1, by omega⟩
    omega
  have htie := le_roundTo_iff_of_odd (p := p) hodd hlo hhi
  obtain ⟨n, hn⟩ := onGrid_roundTo (p := p) hlo
  rw [show (p : ℤ) - 1 + 1 - p = 0 by ring, zpow_zero, mul_one] at htie hn
  rw [show (p : ℤ) - 1 - p = -1 by ring] at htie
  by_contra hc
  rw [hn] at hc htie
  have hlt : (-2 ^ p : ℤ) < n := by exact_mod_cast not_le.mp hc
  have hreach := htie.mp (by exact_mod_cast (by omega : (-2 ^ p + 1 : ℤ) ≤ n))
  norm_num at hreach
  linarith

theorem two_pow_even (hp : 0 < p) : (2 : ℤ) ^ p % 2 = 0 := by
  obtain ⟨j, rfl⟩ : ∃ j, p = j + 1 := ⟨p - 1, by omega⟩
  omega

/-- An integer that was rounded up to an even number has used up the tie. -/
theorem roundTo_add_le_of_even (hp : 0 < p) {s m : ℤ} {d : ℚ} (hx : roundTo p s = 2 * m)
    (hlt : s < 2 * m) (hd : 0 ≤ d) (hd' : d ≤ 1) (hs : 2 ^ p < |s|) (hm : 2 ^ p ≤ |2 * m|)
    (hy : 2 ^ p ≤ |roundTo p (2 * m + d)|) : roundTo p (2 * m + d) ≤ 2 * m := by
  by_contra hc
  have hrep : Representable p (2 * m : ℚ) := hx ▸ representable_roundTo hp s
  obtain ⟨hodd, hbound, hnext⟩ := tie_of_lt_roundTo hp hrep hd hd' (not_le.mp hc) hm hy
  have hpow : (2 : ℤ) ^ (p + 1) = 2 * 2 ^ p := by ring
  have heven := two_pow_even hp
  rw [abs_lt, abs_lt] at hbound
  rw [le_abs] at hm hnext
  have hside : -(2 : ℤ) ^ (p + 1) + 2 ≤ 2 * m ∧ 2 * m + 2 ≤ 2 ^ (p + 1) := by omega
  obtain rfl : s = 2 * m - 1 := eq_of_roundTo_eq_even hp hx hlt (abs_le.mpr ⟨by omega, by omega⟩)
  have hnot := even_of_tie_up hs.le (abs_lt.mpr ⟨by omega, by omega⟩)
    (by push_cast at hx; exact hx.ge)
  omega

/-- **A rounded integer and at most one more** do not overtake the next integer,
except from just below `-2^p`. -/
theorem roundTo_add_le (hp : 0 < p) {s : ℤ} {d : ℚ} (hd : 0 ≤ d) (hd' : d ≤ 1)
    (hs : ¬ (s = -2 ^ p - 1 ∧ 1 / 2 < d)) : roundTo p (roundTo p s + d) ≤ roundTo p (s + 1) := by
  rcases le_or_gt |s| (2 ^ p) with habs | habs
  · rw [roundTo_of_representable hp (representable_intCast hp habs)]
    exact roundTo_mono hp (by linarith)
  rcases le_or_gt (roundTo p s) s with hle | hgt
  · exact roundTo_mono hp (by linarith)
  -- it was rounded up, and the next integer is rounded to the same number
  refine le_trans ?_ (roundTo_mono hp (show (s : ℚ) ≤ s + 1 by linarith))
  have hrep : Representable p (2 ^ p) := by simpa using representable_zpow hp (p : ℤ)
  have hx := representable_roundTo hp (s : ℚ)
  rcases lt_abs.mp habs with hpos | hneg
  · have hlo : (2 ^ p : ℚ) ≤ roundTo p s := le_roundTo hp hrep (by exact_mod_cast hpos.le)
    obtain ⟨m, hm⟩ := hx.exists_even (hlo.trans (le_abs_self _))
    have hy : (2 ^ p : ℚ) ≤ roundTo p (2 * m + d) := le_roundTo hp hrep (by linarith)
    rw [hm] at hlo hgt ⊢
    refine roundTo_add_le_of_even hp hm (by exact_mod_cast hgt) hd hd' habs ?_
      (hy.trans (le_abs_self _))
    exact le_abs.mpr (.inl (by exact_mod_cast hlo))
  · have hhi : roundTo p s ≤ -2 ^ p := by
      refine roundTo_le hp hrep.neg ?_
      exact_mod_cast (by omega : s ≤ -2 ^ p)
    have habs' : 2 ^ p ≤ |roundTo p s| := by
      rw [le_abs]
      exact .inr (by linarith)
    obtain ⟨m, hm⟩ := hx.exists_even habs'
    rw [hm] at hhi hgt ⊢
    have hgt' : s < 2 * m := by exact_mod_cast hgt
    have hhi' : 2 * m ≤ -2 ^ p := by exact_mod_cast hhi
    have heven := two_pow_even hp
    have hpow : (2 : ℤ) ^ (p + 1) = 2 * 2 ^ p := by ring
    rcases eq_or_lt_of_le hhi' with heq | hlt
    · have hside : |2 * (m - 1)| ≤ 2 ^ (p + 1) := by
        have hpos : (0 : ℤ) < 2 ^ p := by positivity
        exact abs_le.mpr ⟨by omega, by omega⟩
      have hs' := eq_of_roundTo_eq_even hp hm hgt' hside
      have hd'' : d ≤ 1 / 2 := not_lt.mp fun hc => hs ⟨by omega, hc⟩
      have hcast : (2 * m : ℚ) = -2 ^ p := by exact_mod_cast heq
      rw [hcast]
      exact roundTo_neg_pow_add_le hp hd hd''
    · have hy : roundTo p (2 * m + d) ≤ -2 ^ p := by
        have hbelow : (2 * m + 1 : ℚ) ≤ -2 ^ p := by exact_mod_cast (by omega : 2 * m + 1 ≤ -2 ^ p)
        exact roundTo_le hp hrep.neg (by linarith)
      refine roundTo_add_le_of_even hp hm hgt' hd hd' habs ?_ ?_
      · exact le_abs.mpr (.inr (by omega))
      · exact le_abs.mpr (.inr (by linarith))

end Lib
