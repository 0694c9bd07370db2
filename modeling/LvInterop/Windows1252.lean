import LvInterop.WriteRead
import Mathlib.Data.Set.List

/-!
# LvInterop.Windows1252

Text in LabVIEW strings on the encoding used under Linux.

The encoder is a plain table.  The decoder is `Encoding::decode`, which looks
for a byte order mark before it uses the table, so a text whose encoding
happens to begin with one does not come back (`setStr_roundTrip_iff`).
-/

namespace LvInterop

open Lib

/-! ## what `encoding_rs` documents -/

/-- The encodings a byte order mark stands for. -/
inductive Bom where
  | utf8
  | utf16le
  | utf16be
deriving DecidableEq, Repr

/-- `Encoding::for_bom`: the mark the bytes begin with, and its length. -/
def forBom : List UInt8 → Option (Bom × Nat)
  | 0xEF :: 0xBB :: 0xBF :: _ => some (.utf8, 3)
  | 0xFF :: 0xFE :: _ => some (.utf16le, 2)
  | 0xFE :: 0xFF :: _ => some (.utf16be, 2)
  | _ => none

/-- A mark is not empty and lies inside the text. -/
theorem forBom_bounds {bs : List UInt8} {b : Bom} {n : Nat} (h : forBom bs = some (b, n)) :
    0 < n ∧ n ≤ bs.length := by
  unfold forBom at h
  split at h
  all_goals
    simp only [Option.some.injEq, Prod.mk.injEq, reduceCtorEq] at h
  all_goals
    obtain ⟨-, rfl⟩ := h
    simp

/-- A single-byte encoding of `encoding_rs`: `table` gives the character of
each byte, `utf` decodes what follows a byte order mark. -/
structure Encoding.SingleByte (enc : Encoding) (table : UInt8 → Char)
    (utf : Bom → List UInt8 → String) : Prop where
  /-- each character of the table is encoded as its byte -/
  encode : ∀ bs, enc.encode (.ofList (bs.map table)) = bs
  /-- `decode` sniffs a mark, drops it and follows it; else it uses the table -/
  decode : ∀ bs, enc.decode bs = match forBom bs with
    | some (b, n) => utf b (bs.drop n)
    | none => .ofList (bs.map table)
  /-- no decoder makes more characters than there are bytes -/
  utf_length : ∀ b bs, (utf b bs).length ≤ bs.length

/-- All characters of `s` are in the table. -/
def Representable (table : UInt8 → Char) (s : String) : Prop :=
  ∀ c ∈ s.toList, ∃ b, table b = c

/-- A representable text is the image of some bytes. -/
theorem Representable.exists_map {table : UInt8 → Char} {s : String} (h : Representable table s) :
    ∃ bs : List UInt8, s = .ofList (bs.map table) := by
  obtain ⟨bs, hbs⟩ : s.toList ∈ Set.range (List.map table) := by
    rw [Set.range_list_map]
    exact h
  exact ⟨bs, by rw [hbs, String.ofList_toList]⟩

/-- Encoding and decoding cancel exactly when the encoded bytes begin with no
byte order mark. -/
theorem Encoding.SingleByte.decode_encode_iff {enc : Encoding} {table : UInt8 → Char}
    {utf : Bom → List UInt8 → String} (henc : enc.SingleByte table utf) {s : String}
    (hs : Representable table s) : enc.decode (enc.encode s) = s ↔ forBom (enc.encode s) = none := by
  obtain ⟨bs, rfl⟩ := hs.exists_map
  rw [henc.encode, henc.decode]
  cases hb : forBom bs with
  | none => exact ⟨fun _ => rfl, fun _ => rfl⟩
  | some bn =>
      obtain ⟨b, n⟩ := bn
      obtain ⟨hpos, hle⟩ := forBom_bounds hb
      refine ⟨fun heq => ?_, fun hc => by cases hc⟩
      have hlen := congrArg String.length heq
      have hutf := henc.utf_length b (bs.drop n)
      simp only [String.length_ofList, List.length_map, List.length_drop] at hlen hutf
      omega

/-! ## `set_str` and `to_rust_string` -/

variable {τ : Type} {api : MemoryApi τ}

/-- `set` stores exactly the bytes it is given, where it returns `Ok`. -/
def LStrHandle.Stores (api : MemoryApi τ) (h : UHandle) (v : List UInt8) (w : World τ) : Prop :=
  ∀ w', LStrHandle.set (.ok api) h v w = (.ok (), w') →
    ∃ l_str, h.asRef w' = .ok l_str ∧ LStr.asSlice l_str w' = v

/-- **Text round trip**: after a successful `set_str` of a representable text
`to_rust_string` returns it exactly when its encoding begins with no byte
order mark. -/
theorem LStrHandle.setStr_roundTrip_iff {enc : Encoding} {table : UInt8 → Char}
    {utf : Bom → List UInt8 → String} (henc : enc.SingleByte table utf) {h : UHandle} {s : String}
    {w w' : World τ} (hs : Representable table s) (hstore : Stores api h (enc.encode s) w)
    (hrun : setStr (.ok api) enc h s w = (.ok (), w')) :
    (∃ l_str, h.asRef w' = .ok l_str ∧ LStr.toRustString enc l_str w' = s) ↔
      forBom (enc.encode s) = none := by
  obtain ⟨l_str, hl, hslice⟩ := hstore w' hrun
  have htext : LStr.toRustString enc l_str w' = enc.decode (enc.encode s) := by
    rw [LStr.toRustString, LStr.toRustStringWithEncoding, hslice]
  rw [← henc.decode_encode_iff hs]
  constructor
  · rintro ⟨l', hl', ht⟩
    obtain rfl := Except.ok.inj (hl.symm.trans hl')
    exact htext ▸ ht
  · exact fun ht => ⟨l_str, hl, htext.trans ht⟩

/-! ## the table -/

/-- The characters of the bytes 0x80 to 0x9F. -/
def windows1252Upper : List Nat :=
  [0x20AC, 0x0081, 0x201A, 0x0192, 0x201E, 0x2026, 0x2020, 0x2021,
   0x02C6, 0x2030, 0x0160, 0x2039, 0x0152, 0x008D, 0x017D, 0x008F,
   0x0090, 0x2018, 0x2019, 0x201C, 0x201D, 0x2022, 0x2013, 0x2014,
   0x02DC, 0x2122, 0x0161, 0x203A, 0x0153, 0x009D, 0x017E, 0x0178]

/-- The character of a byte in Windows-1252. -/
def windows1252 (b : UInt8) : Char :=
  if b.toNat < 0x80 ∨ 0xA0 ≤ b.toNat then .ofNat b.toNat
  else .ofNat (windows1252Upper.getD (b.toNat - 0x80) 0)

/-- The byte of a character, `?` where there is none. -/
def windows1252Byte (c : Char) : UInt8 :=
  if c.toNat < 0x80 ∨ (0xA0 ≤ c.toNat ∧ c.toNat < 0x100) then .ofNat c.toNat
  else if windows1252Upper.contains c.toNat then
    .ofNat (0x80 + windows1252Upper.idxOf c.toNat)
  else 0x3F

theorem windows1252Byte_windows1252 (b : UInt8) : windows1252Byte (windows1252 b) = b := by
  have hall : ∀ n : Fin 256, windows1252Byte (windows1252 (.ofNat n)) = .ofNat n := by
    decide +kernel
  have hb := hall ⟨b.toNat, b.toNat_lt⟩
  simpa using hb

/-- `WINDOWS_1252`, on what is representable in it.  A character that is not
becomes `?` here, where `encoding_rs` writes a numeric character reference, and
behind a byte order mark there is nothing, where it decodes the encoding that
the mark names. -/
def windows1252Encoding : Encoding where
  encode s := s.toList.map windows1252Byte
  decode bs := match forBom bs with
    | some _ => ""
    | none => .ofList (bs.map windows1252)

theorem windows1252_singleByte :
    windows1252Encoding.SingleByte windows1252 fun _ _ => "" where
  encode bs := by
    simp [windows1252Encoding, Function.comp_def, windows1252Byte_windows1252]
  decode bs := by
    cases hb : forBom bs with
    | none => simp [windows1252Encoding, hb]
    | some bn => simp [windows1252Encoding, hb]
  utf_length _ _ := Nat.zero_le _

/-- `Stores` is about one run. -/
theorem LStrHandle.stores_of_run {h : UHandle} {v : List UInt8} {w w' : World τ} {l_str : FatPtr}
    (hrun : set (.ok api) h v w = (.ok (), w')) (hl : h.asRef w' = .ok l_str)
    (hv : LStr.asSlice l_str w' = v) : Stores api h v w := by
  intro w'' hrun'
  obtain rfl := (Prod.mk.inj (hrun.symm.trans hrun')).2
  exact ⟨l_str, hl, hv⟩

/-- The process of `withString` after a `set_str` of the string handle. -/
def Bump.afterSetStr (word : Nat) (s : String) : World Bump :=
  (LStrHandle.setStr (.ok (Bump.api .w64)) windows1252Encoding ⟨1⟩ s (Bump.withString word)).2

theorem setStr_roundTrip_iff_bump :
    ∃ l_str, UHandle.asRef ⟨1⟩ (Bump.afterSetStr 2 "ö€") = .ok l_str ∧
      LStr.toRustString windows1252Encoding l_str (Bump.afterSetStr 2 "ö€") = "ö€" := by
  have hrun : LStrHandle.setStr (.ok (Bump.api .w64)) windows1252Encoding ⟨1⟩ "ö€"
      (Bump.withString 2) = (.ok (), Bump.afterSetStr 2 "ö€") := rfl
  refine (LStrHandle.setStr_roundTrip_iff windows1252_singleByte ?_ ?_ hrun).mpr (by decide)
  · intro c hc
    obtain rfl | rfl : c = 'ö' ∨ c = '€' := by simpa using hc
    · exact ⟨0xF6, by decide⟩
    · exact ⟨0x80, by decide⟩
  · exact LStrHandle.stores_of_run hrun rfl (by decide)

/-- The text `ï»¿` is encoded as EF BB BF, which `decode` takes for a mark. -/
theorem not_setStr_roundTrip :
    Representable windows1252 "ï»¿" ∧
    LStrHandle.Stores (Bump.api .w64) ⟨1⟩ (windows1252Encoding.encode "ï»¿") (Bump.withString 3) ∧
    LStrHandle.setStr (.ok (Bump.api .w64)) windows1252Encoding ⟨1⟩ "ï»¿" (Bump.withString 3) =
      (.ok (), Bump.afterSetStr 3 "ï»¿") ∧
    ∀ l_str, UHandle.asRef ⟨1⟩ (Bump.afterSetStr 3 "ï»¿") = .ok l_str →
      LStr.toRustString windows1252Encoding l_str (Bump.afterSetStr 3 "ï»¿") ≠ "ï»¿" := by
  have hrun : LStrHandle.set (.ok (Bump.api .w64)) ⟨1⟩ (windows1252Encoding.encode "ï»¿")
      (Bump.withString 3) = (.ok (), Bump.afterSetStr 3 "ï»¿") := rfl
  refine ⟨?_, LStrHandle.stores_of_run hrun rfl (by decide), rfl, fun l_str hl => ?_⟩
  · intro c hc
    obtain rfl | rfl | rfl : c = 'ï' ∨ c = '»' ∨ c = '¿' := by simpa using hc
    · exact ⟨0xEF, by decide⟩
    · exact ⟨0xBB, by decide⟩
    · exact ⟨0xBF, by decide⟩
  · obtain rfl : _ = l_str := Except.ok.inj hl
    decide

end LvInterop
