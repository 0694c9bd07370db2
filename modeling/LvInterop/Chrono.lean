import LvInterop.Lib.Exec
import LvInterop.Nanos

/-!
# LvInterop.Chrono

Timestamps as `chrono` times (`types/timestamp.rs`, feature `chrono`).

The seconds are shifted by an unchecked subtraction, and the fractions become
nanoseconds by way of an `f64`.  Rounding them to 53 bits can make a whole
second of them, which `chrono` refuses, and can lose a nanosecond that they
had reached (`convertsTime_iff`).
-/

namespace LvInterop

open Lib

/-- `LVTimeError`. -/
inductive LVTimeError where
  | chronoOutOfRange
deriving DecidableEq, Repr

/-- The message of the error. -/
def LVTimeError.display : LVTimeError → String
  | .chronoOutOfRange => "Cannot generate a chrono time as it is out of range."

/-! ## what `chrono` documents -/

/-- `DateTime<Utc>` and the functions of it the crate calls. -/
structure Chrono where
  DateTime : Type
  fromTimestamp : Int64 → UInt32 → Option DateTime
  timestamp : DateTime → Int64
  timestampSubsecNanos : DateTime → UInt32
  /-- the seconds `chrono` can represent -/
  minSeconds : ℤ
  maxSeconds : ℤ

/-- `s` is in `chrono`'s range. -/
def Chrono.InRange (c : Chrono) (s : ℤ) : Prop := c.minSeconds ≤ s ∧ s ≤ c.maxSeconds

/-- What `chrono` documents. -/
structure Chrono.Lawful (c : Chrono) : Prop where
  /-- there is a time for seconds in range and nanoseconds below a second, or below two
  in a second that a leap second may follow -/
  fromTimestamp : ∀ s n, (∃ d, c.fromTimestamp s n = some d) ↔
    c.InRange s.toInt ∧ (n.toNat < 10 ^ 9 ∨ n.toNat < 2 * 10 ^ 9 ∧ s.toInt % 60 = 59)
  parts : ∀ {s n d}, c.fromTimestamp s n = some d →
    c.timestamp d = s ∧ c.timestampSubsecNanos d = n
  /-- a time outside a leap second is given by its parts -/
  ofParts : ∀ d, (c.timestampSubsecNanos d).toNat < 10 ^ 9 →
    c.fromTimestamp (c.timestamp d) (c.timestampSubsecNanos d) = some d
  /-- the range ends with the year 262142 -/
  maxSeconds_lt : c.maxSeconds < 2 ^ 43

/-! ## the conversions -/

/-- `-` on `i64`: on overflow it panics where overflow is checked, and wraps
where it is not. -/
def i64Sub (overflowChecks : Bool) (a b : Int64) : Outcome ε Int64 :=
  if overflowChecks = true ∧ ¬ (-2 ^ 63 ≤ a.toInt - b.toInt ∧ a.toInt - b.toInt < 2 ^ 63) then
    .panic
  else
    .ok (a - b)

/-- `TryFrom<&LVTime> for DateTime<Utc>`. -/
def dateTimeTryFrom (c : Chrono) (overflowChecks : Bool) (value : LVTime) :
    Outcome LVTimeError c.DateTime :=
  match i64Sub overflowChecks value.seconds UNIX_EPOCH_IN_LV_SECONDS_I64 with
  | .ok seconds_for_time =>
      let nanoseconds := value.subSeconds * .ofInt 1000000000
      match c.fromTimestamp seconds_for_time nanoseconds.toU32 with
      | some d => .ok d
      | none => .err .chronoOutOfRange
  | .err e => .err e
  | .panic => .panic

/-- `From<DateTime<Utc>> for LVTime`. -/
def LVTime.fromDateTime (c : Chrono) (value : c.DateTime) : LVTime :=
  let seconds := c.timestamp value
  let nanoseconds := c.timestampSubsecNanos value
  let fractional := .ofInt nanoseconds.toNat / .ofInt 1000000000
  fromUnixEpoch (.ofInt seconds.toInt + fractional)

/-! ## seconds -/

/-- The seconds since 1970, over unbounded integers. -/
def LVTime.unixSeconds (self : LVTime) : ℤ := self.seconds.toInt - 2082844800

/-- The shift overflows only below `i64::MIN`. -/
theorem i64Sub_of_le {t : LVTime} (h : -2 ^ 63 ≤ t.unixSeconds) (overflowChecks : Bool) :
    ∃ s : Int64, s.toInt = t.unixSeconds ∧
      (i64Sub overflowChecks t.seconds UNIX_EPOCH_IN_LV_SECONDS_I64 : Outcome LVTimeError Int64) =
        .ok s := by
  have hlt := t.seconds.toInt_lt
  have hepoch : UNIX_EPOCH_IN_LV_SECONDS_I64.toInt = 2082844800 := rfl
  rw [LVTime.unixSeconds] at h ⊢
  refine ⟨t.seconds - UNIX_EPOCH_IN_LV_SECONDS_I64, ?_, if_neg ?_⟩
  · rw [Int64.toInt_sub, hepoch]
    exact Int.bmod_eq_of_le (by omega) (by omega)
  · rintro ⟨-, hover⟩
    exact hover ⟨hepoch ▸ h, by omega⟩

/-- Without overflow the conversion is `from_timestamp` on the shifted seconds
and the nanoseconds. -/
theorem dateTimeTryFrom_of_le {c : Chrono} {t : LVTime} (h : -2 ^ 63 ≤ t.unixSeconds)
    (overflowChecks : Bool) : ∃ s : Int64, s.toInt = t.unixSeconds ∧
      dateTimeTryFrom c overflowChecks t =
        match c.fromTimestamp s (t.subSeconds * .ofInt 1000000000).toU32 with
        | some d => .ok d
        | none => .err .chronoOutOfRange := by
  obtain ⟨s, hs, hsub⟩ := i64Sub_of_le h overflowChecks
  refine ⟨s, hs, ?_⟩
  rw [dateTimeTryFrom, hsub]

/-! ## from a timestamp to `chrono` -/

/-- The nanoseconds are cut to an integer. -/
theorem toNat_toU32_nanos (t : LVTime) :
    ((t.subSeconds * .ofInt 1000000000).toU32.toNat : ℤ) = ⌊scaledNanos t.fractions.toNat⌋ := by
  obtain ⟨hlo, hhi, -, -⟩ := scaledNanos_mem t.fractions.toNat_lt
  have htrunc : trunc (t.subSeconds * .ofInt 1000000000).val = ⌊scaledNanos t.fractions.toNat⌋ := by
    rw [val_subSeconds_mul, trunc_of_nonneg hlo]
  have hfloor : ⌊scaledNanos t.fractions.toNat⌋ < 2 ^ 32 := by
    rw [Int.floor_lt]
    norm_num
    linarith
  rw [F64.toNat_toU32, htrunc]
  · rw [htrunc]
    exact Int.floor_nonneg.mpr hlo
  · rw [htrunc]
    exact hfloor

/-- The time of a timestamp: its seconds, and its fractions to within a
nanosecond, wherever `chrono` reaches. -/
structure ConvertsTime (c : Chrono) (overflowChecks : Bool) (t : LVTime) : Prop where
  noOverflow : -2 ^ 63 ≤ t.unixSeconds ∧ t.unixSeconds < 2 ^ 63
  inRange : c.InRange t.unixSeconds → ∃ d, dateTimeTryFrom c overflowChecks t = .ok d ∧
    (c.timestamp d).toInt = t.unixSeconds ∧ (c.timestampSubsecNanos d).toNat < 10 ^ 9 ∧
    |((c.timestampSubsecNanos d).toNat : ℚ) - t.fractions.toNat * 10 ^ 9 / 2 ^ 64| ≤ 1
  outOfRange : ¬ c.InRange t.unixSeconds →
    dateTimeTryFrom c overflowChecks t = .err .chronoOutOfRange

/-- The nanoseconds are below a second unless the fractions are rounded to one. -/
theorem toNat_toU32_nanos_lt_iff (t : LVTime) :
    (t.subSeconds * .ofInt 1000000000).toU32.toNat < 10 ^ 9 ↔
      t.fractions.toNat < 2 ^ 64 - 1024 := by
  have hcast := toNat_toU32_nanos t
  have hiff := scaledNanos_eq_iff t.fractions.toNat_lt
  obtain ⟨-, hle, -, -⟩ := scaledNanos_mem t.fractions.toNat_lt
  rcases lt_or_eq_of_le hle with hlt | heq
  · have hfloor : ⌊scaledNanos t.fractions.toNat⌋ < 10 ^ 9 := by
      rw [Int.floor_lt]
      exact_mod_cast hlt
    have hne : ¬ 2 ^ 64 - 1024 ≤ t.fractions.toNat := fun h => hlt.ne (hiff.mpr h)
    omega
  · have hfloor : ⌊scaledNanos t.fractions.toNat⌋ = 10 ^ 9 := by
      rw [heq]
      exact_mod_cast Int.floor_intCast (R := ℚ) 1000000000
    have hfull := hiff.mp heq
    omega

/-- A time converted to has the parts passed to `from_timestamp`. -/
theorem parts_of_dateTimeTryFrom {c : Chrono} (hc : c.Lawful) {overflowChecks : Bool} {t : LVTime}
    {d : c.DateTime} (hle : -2 ^ 63 ≤ t.unixSeconds)
    (h : dateTimeTryFrom c overflowChecks t = .ok d) : (c.timestamp d).toInt = t.unixSeconds ∧
      c.timestampSubsecNanos d = (t.subSeconds * .ofInt 1000000000).toU32 := by
  obtain ⟨s, hs, heq⟩ := dateTimeTryFrom_of_le (c := c) hle overflowChecks
  rw [heq] at h
  cases hd : c.fromTimestamp s (t.subSeconds * .ofInt 1000000000).toU32 with
  | none =>
      rw [hd] at h
      cases h
  | some d' =>
      rw [hd] at h
      cases h
      obtain ⟨hts, hns⟩ := hc.parts hd
      exact ⟨hts ▸ hs, hns⟩

/-- **A timestamp is converted as it should be exactly** where shifting its
seconds does not overflow and, in `chrono`'s range, the rounding of its
fractions neither fills the second nor loses a whole nanosecond. -/
theorem convertsTime_iff {c : Chrono} (hc : c.Lawful) (overflowChecks : Bool) (t : LVTime) :
    ConvertsTime c overflowChecks t ↔ -2 ^ 63 ≤ t.unixSeconds ∧
      (c.InRange t.unixSeconds →
        t.fractions.toNat < 2 ^ 64 - 1024 ∧ KeepsWholeNanos t.fractions.toNat) := by
  have hclose := abs_floor_scaledNanos_sub_le_iff t.fractions.toNat_lt
  rw [← toNat_toU32_nanos, Int.cast_natCast] at hclose
  rw [← toNat_toU32_nanos_lt_iff, ← hclose]
  constructor
  · intro h
    refine ⟨h.noOverflow.1, fun hr => ?_⟩
    obtain ⟨d, hd, -, hlt, hnanos⟩ := h.inRange hr
    obtain ⟨-, hns⟩ := parts_of_dateTimeTryFrom hc h.noOverflow.1 hd
    rw [hns] at hlt hnanos
    exact ⟨hlt, hnanos⟩
  · rintro ⟨hle, h⟩
    obtain ⟨s, hs, heq⟩ := dateTimeTryFrom_of_le (c := c) hle overflowChecks
    have hsome := hc.fromTimestamp s (t.subSeconds * .ofInt 1000000000).toU32
    rw [hs] at hsome
    refine ⟨⟨hle, ?_⟩, fun hr => ?_, fun hr => ?_⟩
    · have hlt := t.seconds.toInt_lt
      rw [LVTime.unixSeconds]
      omega
    · obtain ⟨hlt, hnanos⟩ := h hr
      obtain ⟨d, hd⟩ := hsome.mpr ⟨hr, .inl hlt⟩
      have hok : dateTimeTryFrom c overflowChecks t = .ok d := by rw [heq, hd]
      obtain ⟨hts, hns⟩ := parts_of_dateTimeTryFrom hc hle hok
      exact ⟨d, hok, hts, hns ▸ hlt, hns ▸ hnanos⟩
    · cases hd : c.fromTimestamp s (t.subSeconds * .ofInt 1000000000).toU32 with
      | none => rw [heq, hd]
      | some d => exact absurd (hsome.mp ⟨d, hd⟩).1 hr

/-! ## the calendar -/

/-- Seconds and nanoseconds of which there is a `DateTime<Utc>`. -/
def UtcParts (s : Int64) (n : UInt32) : Prop :=
  (-8334601228800 ≤ s.toInt ∧ s.toInt ≤ 8210266876799) ∧
    (n.toNat < 10 ^ 9 ∨ n.toNat < 2 * 10 ^ 9 ∧ s.toInt % 60 = 59)

instance (s : Int64) (n : UInt32) : Decidable (UtcParts s n) :=
  inferInstanceAs (Decidable (_ ∧ _))

/-- `chrono` with a `DateTime<Utc>` as its parts. -/
def utc : Chrono where
  DateTime := { d : Int64 × UInt32 // UtcParts d.1 d.2 }
  fromTimestamp s n := if h : UtcParts s n then some ⟨(s, n), h⟩ else none
  timestamp d := d.1.1
  timestampSubsecNanos d := d.1.2
  minSeconds := -8334601228800
  maxSeconds := 8210266876799

theorem lawful_utc : utc.Lawful where
  fromTimestamp s n := by
    by_cases hp : UtcParts s n
    · exact iff_of_true ⟨⟨(s, n), hp⟩, dif_pos hp⟩ hp
    · refine iff_of_false ?_ hp
      rintro ⟨d, hd⟩
      cases (dif_neg hp).symm.trans hd
  parts {s n d} h := by
    by_cases hp : UtcParts s n
    · cases (dif_pos hp).symm.trans h
      exact ⟨rfl, rfl⟩
    · cases (dif_neg hp).symm.trans h
  ofParts d _ := dif_pos d.2
  maxSeconds_lt := by decide

theorem convertsTime_quarter :
    ConvertsTime utc true { seconds := 2082844800, fractions := 0x4000000000000000 } :=
  (convertsTime_iff lawful_utc true _).mpr ⟨by decide, fun _ => by decide⟩

/-- The last fraction of a second in range is refused. -/
theorem not_convertsTime :
    ¬ ConvertsTime utc true { seconds := 2082844800, fractions := 0xFFFFFFFFFFFFFFFF } := by
  intro h
  obtain ⟨d, hd, -, hlt, -⟩ := h.inRange ⟨by decide, by decide⟩
  obtain ⟨-, hns⟩ := parts_of_dateTimeTryFrom lawful_utc (by decide) hd
  rw [hns, toNat_toU32_nanos_lt_iff] at hlt
  exact absurd hlt (by decide)

end LvInterop
