import LvInterop.Timestamp
import Mathlib.Data.List.Pairwise
import Mathlib.Data.Rat.Floor
import Mathlib.Tactic.Linarith

/-!
# LvInterop.TimeOrder

The order `LVTime` derives (`types/timestamp.rs`) against the order of time.

A derived `Ord` compares field by field in the order of the declaration, and
the declaration follows LabVIEW's layout, which has the fractions first.  Two
timestamps compare by time only where that makes no difference
(`chronological_iff`).
-/

namespace LvInterop

namespace LVTime

/-- The derived `Ord::cmp`. -/
def cmp (self other : LVTime) : Ordering :=
  (compare self.fractions other.fractions).then (compare self.seconds other.seconds)

/-- `slice::sort`. -/
def sort (times : List LVTime) : List LVTime := times.mergeSort fun a b => (a.cmp b).isLE

/-- The time in seconds, of which `to_lv_epoch` is an approximation. -/
def value (self : LVTime) : ℚ := self.seconds.toInt + self.fractions.toNat / 2 ^ 64

/-! ## the derived order -/

theorem cmp_eq_lt_iff {a b : LVTime} : a.cmp b = .lt ↔
    a.fractions.toNat < b.fractions.toNat ∨
      a.fractions.toNat = b.fractions.toNat ∧ a.seconds.toInt < b.seconds.toInt := by
  simp [cmp, Ordering.then_eq_lt, Std.compare_eq_lt, UInt64.lt_iff_toNat_lt,
    Int64.lt_iff_toInt_lt, UInt64.toNat_inj]

theorem isLE_cmp_iff {a b : LVTime} : (a.cmp b).isLE ↔
    a.fractions.toNat < b.fractions.toNat ∨
      a.fractions.toNat = b.fractions.toNat ∧ a.seconds.toInt ≤ b.seconds.toInt := by
  simp [cmp, Ordering.isLE_then_iff_or, Std.compare_eq_lt, Std.isLE_compare,
    UInt64.lt_iff_toNat_lt, Int64.le_iff_toInt_le, UInt64.toNat_inj]

/-- A sorted list is sorted by the derived order. -/
theorem pairwise_sort (times : List LVTime) :
    (sort times).Pairwise fun a b => (a.cmp b).isLE := by
  refine List.pairwise_mergeSort (fun a b c hab hbc => ?_) (fun a b => ?_) times
  · rw [isLE_cmp_iff] at hab hbc ⊢
    omega
  · rw [Bool.or_eq_true, isLE_cmp_iff, isLE_cmp_iff]
    omega

/-! ## the order of time -/

/-- The comparison of `a` with `b` is one of times. -/
structure Chronological (a b : LVTime) : Prop where
  lt : a.cmp b = .lt ↔ a.instant < b.instant
  eq : a = b ↔ a.instant = b.instant
  value : a.cmp b = .lt ↔ a.value < b.value

/-- The times in a list do not decrease. -/
def InTimeOrder (times : List LVTime) : Prop := times.Pairwise fun a b => a.instant ≤ b.instant

/-- Fractions and seconds do not disagree about which of two times is the
earlier one. -/
def SameOrder (a b : LVTime) : Prop :=
  a.fractions = b.fractions ∨ a.seconds = b.seconds ∨
    (a.fractions < b.fractions ↔ a.seconds < b.seconds)

theorem sameOrder_iff {a b : LVTime} : SameOrder a b ↔
    a.fractions.toNat = b.fractions.toNat ∨ a.seconds.toInt = b.seconds.toInt ∨
      (a.fractions.toNat < b.fractions.toNat ↔ a.seconds.toInt < b.seconds.toInt) := by
  rw [SameOrder, UInt64.toNat_inj, Int64.toInt_inj, UInt64.lt_iff_toNat_lt, Int64.lt_iff_toInt_lt]

/-- Equal instants are equal timestamps. -/
theorem instant_inj {a b : LVTime} : a.instant = b.instant ↔ a = b := by
  constructor
  · intro h
    have ha := a.fractions.toNat_lt
    have hb := b.fractions.toNat_lt
    simp only [instant] at h
    have hf : a.fractions.toNat = b.fractions.toNat := by omega
    have hs : a.seconds.toInt = b.seconds.toInt := by omega
    have hfields := And.intro (UInt64.toNat_inj.mp hf) (Int64.toInt_inj.mp hs)
    cases a
    cases b
    simpa using hfields
  · intro h
    rw [h]

/-- The instant counts units of 2^-64 s. -/
theorem value_eq (t : LVTime) : t.value = t.instant / 2 ^ 64 := by
  rw [value, instant]
  push_cast
  ring

theorem value_lt_iff {a b : LVTime} : a.value < b.value ↔ a.instant < b.instant := by
  rw [value_eq, value_eq, div_lt_div_iff_of_pos_right (by norm_num), Int.cast_lt]

/-- Two timestamps compare by time when their fields do not disagree. -/
theorem cmp_eq_lt_iff_instant {a b : LVTime} :
    (a.cmp b = .lt ↔ a.instant < b.instant) ↔ SameOrder a b := by
  have ha := a.fractions.toNat_lt
  have hb := b.fractions.toNat_lt
  rw [cmp_eq_lt_iff, sameOrder_iff]
  simp only [instant]
  omega

instance : Std.Symm SameOrder where
  symm a b h := by
    rw [sameOrder_iff] at h ⊢
    omega

/-- Where the derived order has `a` before `b`, time has it so when the fields
do not disagree. -/
theorem instant_le_iff {a b : LVTime} (h : (a.cmp b).isLE) :
    a.instant ≤ b.instant ↔ SameOrder a b := by
  have ha := a.fractions.toNat_lt
  have hb := b.fractions.toNat_lt
  rw [isLE_cmp_iff] at h
  rw [sameOrder_iff]
  simp only [instant]
  omega

theorem mem_sort {t : LVTime} {times : List LVTime} : t ∈ sort times ↔ t ∈ times :=
  List.mem_mergeSort

/-- A sorted list is in time order when no two of its fields disagree. -/
theorem inTimeOrder_sort_iff (times : List LVTime) :
    InTimeOrder (sort times) ↔ ∀ a ∈ times, ∀ b ∈ times, SameOrder a b := by
  have hsorted := pairwise_sort times
  constructor
  · intro h a ha b hb
    have hsame : (sort times).Pairwise SameOrder :=
      (hsorted.and h).imp fun hab => (instant_le_iff hab.1).mp hab.2
    have hrefl : ∀ t ∈ sort times, SameOrder t t := fun t _ => .inl rfl
    exact hsame.forall_of_forall hrefl (mem_sort.mpr ha) (mem_sort.mpr hb)
  · intro h
    refine hsorted.imp_of_mem fun ha hb hab => (instant_le_iff hab).mpr ?_
    exact h _ (mem_sort.mp ha) _ (mem_sort.mp hb)

/-- **The derived order is the order of time exactly** on timestamps whose
fields do not disagree. -/
theorem chronological_iff (a b : LVTime) (times : List LVTime) :
    (Chronological a b ↔ SameOrder a b) ∧
      (InTimeOrder (sort times) ↔ ∀ x ∈ times, ∀ y ∈ times, SameOrder x y) := by
  refine ⟨⟨fun h => cmp_eq_lt_iff_instant.mp h.lt, fun h => ?_⟩, inTimeOrder_sort_iff times⟩
  have hlt := cmp_eq_lt_iff_instant.mpr h
  exact ⟨hlt, instant_inj.symm, hlt.trans value_lt_iff.symm⟩

/-- One second and no fraction is later than a fraction of a second, but sorts
before it. -/
theorem not_chronological : ¬ Chronological (fromParts 1 0) (fromParts 0 1) := by
  intro h
  have hlt : (1 : Int) * 2 ^ 64 + 0 < 0 * 2 ^ 64 + 1 := h.lt.mp (by decide)
  omega

end LVTime

end LvInterop
