import LvInterop.Lib.Bytes
import Mathlib.Tactic.IntervalCases

/-!
# LvInterop.Timestamp

LabVIEW timestamps (`types/timestamp.rs`): signed seconds since 1904 and
unsigned fractions of 2^-64 s, exchanged as 16 bytes in either byte order.

The four tables of byte indices are one fact each about the two halves of a
byte string (`toLeBytes_toList` and its like); everything else about the binary
formats follows from those.
-/

namespace LvInterop

open Lib

/-- `LVTime`. -/
structure LVTime where
  fractions : UInt64
  seconds : Int64
deriving DecidableEq, Repr

/-! ## words -/

/-- `u64::to_le_bytes`. -/
def u64ToLeBytes (v : UInt64) : Vector UInt8 8 := ⟨(toLE 8 v.toNat).toArray, by simp⟩

/-- `u64::to_be_bytes`. -/
def u64ToBeBytes (v : UInt64) : Vector UInt8 8 := ⟨(toBE 8 v.toNat).toArray, by simp⟩

/-- `i64::to_le_bytes`. -/
def i64ToLeBytes (v : Int64) : Vector UInt8 8 := u64ToLeBytes v.toUInt64

/-- `i64::to_be_bytes`. -/
def i64ToBeBytes (v : Int64) : Vector UInt8 8 := u64ToBeBytes v.toUInt64

/-- `u64::from_le_bytes`. -/
def u64FromLeBytes (bytes : Vector UInt8 8) : UInt64 := .ofNat (ofLE bytes.toList)

/-- `u64::from_be_bytes`. -/
def u64FromBeBytes (bytes : Vector UInt8 8) : UInt64 := .ofNat (ofBE bytes.toList)

/-- `i64::from_le_bytes`. -/
def i64FromLeBytes (bytes : Vector UInt8 8) : Int64 := (u64FromLeBytes bytes).toInt64

/-- `i64::from_be_bytes`. -/
def i64FromBeBytes (bytes : Vector UInt8 8) : Int64 := (u64FromBeBytes bytes).toInt64

/-! ## timestamps -/

namespace LVTime

/-- `LVTime::from_parts`. -/
def fromParts (seconds : Int64) (fractions : UInt64) : LVTime := ⟨fractions, seconds⟩

/-- `LVTime::to_le_bytes`. -/
def toLeBytes (self : LVTime) : Vector UInt8 16 :=
  let littlest := u64ToLeBytes self.fractions
  let biggest := i64ToLeBytes self.seconds
  #v[littlest[0], littlest[1], littlest[2], littlest[3], littlest[4], littlest[5], littlest[6],
    littlest[7], biggest[0], biggest[1], biggest[2], biggest[3], biggest[4], biggest[5],
    biggest[6], biggest[7]]

/-- `LVTime::to_be_bytes`. -/
def toBeBytes (self : LVTime) : Vector UInt8 16 :=
  let biggest := i64ToBeBytes self.seconds
  let littlest := u64ToBeBytes self.fractions
  #v[biggest[0], biggest[1], biggest[2], biggest[3], biggest[4], biggest[5], biggest[6],
    biggest[7], littlest[0], littlest[1], littlest[2], littlest[3], littlest[4], littlest[5],
    littlest[6], littlest[7]]

/-- `LVTime::from_le_bytes`. -/
def fromLeBytes (bytes : Vector UInt8 16) : LVTime :=
  let littlest := #v[bytes[0], bytes[1], bytes[2], bytes[3], bytes[4], bytes[5], bytes[6], bytes[7]]
  let biggest := #v[bytes[8], bytes[9], bytes[10], bytes[11], bytes[12], bytes[13], bytes[14],
    bytes[15]]
  let fraction := u64FromLeBytes littlest
  let seconds := i64FromLeBytes biggest
  fromParts seconds fraction

/-- `LVTime::from_be_bytes`. -/
def fromBeBytes (bytes : Vector UInt8 16) : LVTime :=
  let biggest := #v[bytes[0], bytes[1], bytes[2], bytes[3], bytes[4], bytes[5], bytes[6], bytes[7]]
  let littlest := #v[bytes[8], bytes[9], bytes[10], bytes[11], bytes[12], bytes[13], bytes[14],
    bytes[15]]
  let fractions := u64FromBeBytes littlest
  let seconds := i64FromBeBytes biggest
  fromParts seconds fractions

end LVTime

/-! ## the index tables -/

/-- The bytes of a word, one by one. -/
theorem toList_eight (v : Vector α 8) :
    v.toList = [v[0], v[1], v[2], v[3], v[4], v[5], v[6], v[7]] := by
  apply List.ext_getElem (by simp)
  intro i hi _
  have hi' : i < 8 := by simpa using hi
  interval_cases i <;> rfl

/-- The bytes of a timestamp, one by one. -/
theorem toList_sixteen (v : Vector α 16) :
    v.toList = [v[0], v[1], v[2], v[3], v[4], v[5], v[6], v[7], v[8], v[9], v[10], v[11], v[12],
      v[13], v[14], v[15]] := by
  apply List.ext_getElem (by simp)
  intro i hi _
  have hi' : i < 16 := by simpa using hi
  interval_cases i <;> rfl

theorem u64ToLeBytes_toList (v : UInt64) : (u64ToLeBytes v).toList = toLE 8 v.toNat := by
  simp [u64ToLeBytes]

theorem u64ToBeBytes_toList (v : UInt64) : (u64ToBeBytes v).toList = toBE 8 v.toNat := by
  simp [u64ToBeBytes]

namespace LVTime

/-- Little endian: first the fractions, then the seconds. -/
theorem toLeBytes_toList (t : LVTime) :
    t.toLeBytes.toList = toLE 8 t.fractions.toNat ++ toLE 8 t.seconds.toUInt64.toNat := by
  rw [← u64ToLeBytes_toList, ← u64ToLeBytes_toList, toList_eight, toList_eight]
  rfl

/-- Big endian: first the seconds, then the fractions. -/
theorem toBeBytes_toList (t : LVTime) :
    t.toBeBytes.toList = toBE 8 t.seconds.toUInt64.toNat ++ toBE 8 t.fractions.toNat := by
  rw [← u64ToBeBytes_toList, ← u64ToBeBytes_toList, toList_eight, toList_eight]
  rfl

theorem fromLeBytes_eq (b : Vector UInt8 16) : fromLeBytes b =
    ⟨.ofNat (ofLE (b.toList.take 8)), (UInt64.ofNat (ofLE (b.toList.drop 8))).toInt64⟩ := by
  rw [toList_sixteen]
  rfl

theorem fromBeBytes_eq (b : Vector UInt8 16) : fromBeBytes b =
    ⟨.ofNat (ofBE (b.toList.drop 8)), (UInt64.ofNat (ofBE (b.toList.take 8))).toInt64⟩ := by
  rw [toList_sixteen]
  rfl

/-! ## the two byte orders -/

/-- Each byte order is the other one backwards. -/
theorem toBeBytes_eq_reverse (t : LVTime) : t.toBeBytes = t.toLeBytes.reverse := by
  apply Vector.toList_inj.mp
  rw [Vector.toList_reverse, toBeBytes_toList, toLeBytes_toList, List.reverse_append]
  rfl

theorem fromLeBytes_reverse (b : Vector UInt8 16) : fromLeBytes b.reverse = fromBeBytes b := by
  have hlen : b.toList.length = 16 := by simp
  rw [fromLeBytes_eq, fromBeBytes_eq, Vector.toList_reverse, List.take_reverse, List.drop_reverse,
    hlen]
  rfl

/-! ## round trips -/

theorem fromLeBytes_toLeBytes (t : LVTime) : fromLeBytes t.toLeBytes = t := by
  have hf : t.fractions.toNat < 256 ^ 8 := t.fractions.toNat_lt
  have hs : t.seconds.toUInt64.toNat < 256 ^ 8 := t.seconds.toUInt64.toNat_lt
  rw [fromLeBytes_eq, toLeBytes_toList, List.take_left' (length_toLE _ _),
    List.drop_left' (length_toLE _ _), ofLE_toLE_of_lt hf, ofLE_toLE_of_lt hs, UInt64.ofNat_toNat,
    UInt64.ofNat_toNat]
  rfl

theorem toLeBytes_fromLeBytes (b : Vector UInt8 16) : (fromLeBytes b).toLeBytes = b := by
  have hlow : (b.toList.take 8).length = 8 := by simp
  have hhigh : (b.toList.drop 8).length = 8 := by simp
  have hlt := ofLE_lt (b.toList.take 8)
  have hlt' := ofLE_lt (b.toList.drop 8)
  have hle := toLE_ofLE (b.toList.take 8)
  have hle' := toLE_ofLE (b.toList.drop 8)
  rw [hlow] at hlt hle
  rw [hhigh] at hlt' hle'
  apply Vector.toList_inj.mp
  rw [toLeBytes_toList, fromLeBytes_eq, UInt64.toUInt64_toInt64, UInt64.toNat_ofNat_of_lt' hlt,
    UInt64.toNat_ofNat_of_lt' hlt', hle, hle', List.take_append_drop]

theorem fromBeBytes_toBeBytes (t : LVTime) : fromBeBytes t.toBeBytes = t := by
  rw [← fromLeBytes_reverse, toBeBytes_eq_reverse, Vector.reverse_reverse, fromLeBytes_toLeBytes]

theorem toBeBytes_fromBeBytes (b : Vector UInt8 16) : (fromBeBytes b).toBeBytes = b := by
  rw [← fromLeBytes_reverse, toBeBytes_eq_reverse, toLeBytes_fromLeBytes, Vector.reverse_reverse]

/-! ## the 128-bit number -/

/-- The time in units of 2^-64 s. -/
def instant (self : LVTime) : Int := self.seconds.toInt * 2 ^ 64 + self.fractions.toNat

/-- The two's complement of the time: fractions below, seconds above. -/
theorem toNat_ofInt_instant (t : LVTime) : (BitVec.ofInt 128 t.instant).toNat =
    t.fractions.toNat + 256 ^ 8 * t.seconds.toUInt64.toNat := by
  have hf := t.fractions.toNat_lt
  have hs := t.seconds.toUInt64.toNat_lt
  have hint : t.seconds.toInt = t.seconds.toBitVec.toInt := rfl
  have hnat : t.seconds.toBitVec.toNat = t.seconds.toUInt64.toNat := rfl
  rw [BitVec.toNat_ofInt, instant, hint, BitVec.toInt_eq_toNat_cond, hnat]
  split_ifs <;> omega

theorem toLE_instant (t : LVTime) :
    toLE 16 (BitVec.ofInt 128 t.instant).toNat = t.toLeBytes.toList := by
  have hf : t.fractions.toNat < 256 ^ 8 := t.fractions.toNat_lt
  rw [toNat_ofInt_instant, toLE_add 8 8, toLeBytes_toList, ← toLE_mod, Nat.add_mul_mod_self_left,
    toLE_mod, Nat.add_mul_div_left _ _ (by decide), Nat.div_eq_of_lt hf, Nat.zero_add]

/-- **The binary formats** are the two byte orders of one 128-bit number, and
decoding undoes encoding both ways. -/
theorem bytes_roundTrip :
    (∀ t : LVTime, t.toBeBytes.toList = toBE 16 (BitVec.ofInt 128 t.instant).toNat ∧
      t.toLeBytes.toList = toLE 16 (BitVec.ofInt 128 t.instant).toNat ∧
      t.toBeBytes = t.toLeBytes.reverse ∧ t.toLeBytes = t.toBeBytes.reverse ∧
      fromBeBytes t.toBeBytes = t ∧ fromLeBytes t.toLeBytes = t) ∧
    ∀ b : Vector UInt8 16, (fromBeBytes b).toBeBytes = b ∧ (fromLeBytes b).toLeBytes = b ∧
      fromLeBytes b.reverse = fromBeBytes b := by
  refine ⟨fun t => ⟨?_, (toLE_instant t).symm, toBeBytes_eq_reverse t, ?_,
    fromBeBytes_toBeBytes t, fromLeBytes_toLeBytes t⟩, fun b => ⟨toBeBytes_fromBeBytes b,
    toLeBytes_fromLeBytes b, fromLeBytes_reverse b⟩⟩
  · rw [toBE, toLE_instant, toBeBytes_eq_reverse, Vector.toList_reverse]
  · rw [toBeBytes_eq_reverse, Vector.reverse_reverse]

end LVTime

end LvInterop
