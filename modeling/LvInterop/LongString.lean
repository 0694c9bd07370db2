import LvInterop.WriteRead

/-!
# LvInterop.LongString

Strings of more than `i32::MAX` bytes.

`set` asks for a block of the full length and casts the length into the size
field.  Nothing on the way looks whether it fits, so such a string is rejected
only where the manager happens to refuse the block (`rejects_iff`); otherwise
less than it is read back (`length_asSlice_lt_of_granted`).
-/

namespace LvInterop

open Lib

variable {τ : Type} {width : PtrWidth} {inv : World τ → Prop} {api : MemoryApi τ}

/-- More bytes than the size field can count. -/
abbrev LongBytes : Type := { v : List UInt8 // 2 ^ 31 ≤ v.length }

/-- `v` was rejected by the string of `h`: with an error, and the string is
what it was. -/
structure LStrHandle.Rejects (h : UHandle) (v : List UInt8) (w : World τ)
    (r : Outcome LVInteropError Unit × World τ) : Prop where
  err : ∃ e, r.1 = .err e
  kept : w.Kept r.2 h
  string : ∀ l_str, LStr.Stored w h → h.asRef w = .ok l_str →
    LStr.sizeField l_str r.2 = LStr.sizeField l_str w ∧
      LStr.asSlice l_str r.2 = LStr.asSlice l_str w
  notWrapped : r.1 = .ok () → ∀ l_str, h.asRef r.2 = .ok l_str →
    LStr.sizeField l_str r.2 ≠ Int32.ofNat v.length

/-- No string was made of `v`, and all others are what they were. -/
structure LStrOwned.Rejects (v : List UInt8) (w : World τ)
    (r : Outcome LVInteropError UHandle × World τ) : Prop where
  err : ∃ e, r.1 = .err e
  kept : ∀ k, w.Live k → w.Kept r.2 k
  notWrapped : ∀ h, r.1 = .ok h → ∀ l_str, h.asRef r.2 = .ok l_str →
    LStr.sizeField l_str r.2 ≠ Int32.ofNat v.length

/-- No slice is as long as that. -/
theorem LStr.length_asSlice_lt (l_str : FatPtr) (w : World τ) :
    (LStr.asSlice l_str w).length < 2 ^ 31 := by
  rw [LStr.asSlice, length_readBytes, usizeTryFrom]
  have hlt := (LStr.sizeField l_str w).toInt_lt
  split_ifs with h
  · rw [Option.getD_some]
    omega
  · decide

namespace LStrHandle

/-- A granted string is cut: the size field has the length modulo 2^32, and the
slice is shorter than what was written. -/
theorem length_asSlice_lt_of_granted (hapi : api.Lawful width inv) {h : UHandle} (v : LongBytes)
    {w : World τ} (hinv : inv w) (hg : ¬ Refused api h v.val w) :
    (set (.ok api) h v.val w).1 = .ok () ∧
      ∃ l_str, h.asRef (set (.ok api) h v.val w).2 = .ok l_str ∧
        LStr.sizeField l_str (set (.ok api) h v.val w).2 = Int32.ofNat v.val.length ∧
        (LStr.asSlice l_str (set (.ok api) h v.val w).2).length < v.val.length := by
  obtain ⟨s, w', hr, hinv', ⟨hne, -⟩ | ⟨-, -, -, hu', hrun⟩⟩ := set_cases hapi h v.val hinv
  · exact absurd (by rw [Refused, hr]; exact hne) hg
  · have hu : (⟨h, fill v.val ⟨w'.addr h, (w'.master h).next⟩ w'⟩ : Slot τ).Usable inv :=
      ⟨fill_inv hapi hinv', hu'.live, hu'.addr⟩
    rw [hrun]
    refine ⟨rfl, _, UHandle.asRef_of_usable hapi hu, sizeField_fill _ _ _ _ rfl, ?_⟩
    exact (LStr.length_asSlice_lt _ _).trans_le v.property

theorem set_rejects_iff (hapi : api.Lawful width inv) (h : UHandle) (v : LongBytes) {w : World τ}
    (hinv : inv w) :
    Rejects h v.val w (set (.ok api) h v.val w) ↔ Refused api h v.val w := by
  constructor
  · intro hrej
    by_contra hg
    obtain ⟨e, he⟩ := hrej.err
    cases (length_asSlice_lt_of_granted hapi v hinv hg).1.symm.trans he
  · intro href
    obtain ⟨s, w', hr, -, ⟨-, hsame, e, hrun⟩ | ⟨rfl, -⟩⟩ := set_cases hapi h v.val hinv
    · rw [hrun]
      refine ⟨⟨e, rfl⟩, hsame h, fun l_str hs hl => ?_, nofun⟩
      have hlive : w.Live h := by
        obtain ⟨n, hn, -⟩ := hs
        simp [World.Live, hn]
      have haddr := (UHandle.asRef_of_kept hlive (hsame h) hl).1
      exact ⟨LStr.sizeField_of_kept hs (hsame h) haddr, LStr.asSlice_of_kept hs (hsame h) haddr⟩
    · exact absurd (by rw [hr]) href

end LStrHandle

namespace LStrOwned

theorem fromData_rejects_iff (hapi : api.Lawful width inv) (v : LongBytes) {w : World τ}
    (hinv : inv w) : Rejects v.val w (fromData (.ok api) v.val w) ↔
      (api.newHandle 0 w).1 = .null ∨
        LStrHandle.Refused api (api.newHandle 0 w).1 v.val (api.newHandle 0 w).2 := by
  obtain ⟨w₁, hn, -, hsame, hrun⟩ | ⟨⟨h, w₁⟩, hf, -⟩ :=
    OwnedUHandle.newUnsized_cases hapi hinv
      (Slot.onWorld fun handle => LStrHandle.set (.ok api) handle v.val)
  · have hfd : fromData (.ok api) v.val w = (.err (.internalError .handleCreationFailed), w₁) := hrun
    rw [hfd, hn]
    exact iff_of_true ⟨⟨_, rfl⟩, fun k _ => hsame k, nofun⟩ (.inl rfl)
  · have hn : api.newHandle 0 w = (h, w₁) := hf.new
    have hne : h ≠ .null := hf.ne_null
    rw [fromData_of_ne hne hn, hn, or_iff_right hne]
    constructor
    · intro hrej
      by_contra hg
      obtain ⟨e, he⟩ := hrej.err
      rw [(LStrHandle.length_asSlice_lt_of_granted hapi v hf.usable.inv hg).1] at he
      cases he
    · intro href
      have hrej := (LStrHandle.set_rejects_iff hapi h v hf.usable.inv).mpr href
      obtain ⟨e, he⟩ := hrej.err
      rw [he]
      exact ⟨⟨e, rfl⟩, fun k hk => kept_of_fresh hapi v.val hf hk, nofun⟩

end LStrOwned

/-- **A string that is too long is rejected exactly** where the manager refuses
a block of its length, by `set`, by `set_str` of a text that encodes to it, and
by `from_data`, which may also get no handle. -/
theorem rejects_iff (hapi : api.Lawful .w64 inv) (v : LongBytes) {w : World τ} (hinv : inv w) :
    (∀ h, LStrHandle.Rejects h v.val w (LStrHandle.set (.ok api) h v.val w) ↔
      LStrHandle.Refused api h v.val w) ∧
    (∀ h (LV_ENCODING : Encoding) value, LV_ENCODING.encode value = v.val →
      (LStrHandle.Rejects h v.val w (LStrHandle.setStr (.ok api) LV_ENCODING h value w) ↔
        LStrHandle.Refused api h v.val w)) ∧
    (LStrOwned.Rejects v.val w (LStrOwned.fromData (.ok api) v.val w) ↔
      (api.newHandle 0 w).1 = .null ∨
        LStrHandle.Refused api (api.newHandle 0 w).1 v.val (api.newHandle 0 w).2) := by
  refine ⟨fun h => LStrHandle.set_rejects_iff hapi h v hinv, fun h LV_ENCODING value hv => ?_,
    LStrOwned.fromData_rejects_iff hapi v hinv⟩
  have hset : LStrHandle.setStr (.ok api) LV_ENCODING h value w =
      LStrHandle.set (.ok api) h v.val w := by
    rw [LStrHandle.setStr, LStrHandle.setStrWithEncoding, hv]
  rw [hset]
  exact LStrHandle.set_rejects_iff hapi h v hinv

/-- 2 GiB. -/
def twoGiB : LongBytes := ⟨List.replicate (2 ^ 31) 7, Nat.le_of_eq List.length_replicate.symm⟩

/-- A process with one string handle, of which no other size is granted. -/
def Bump.fullString : World Bump :=
  (LStrOwned.fromData (.ok (Bump.api .w64)) [] (Bump.start 1 [0, 0, 2])).2

theorem rejects_fullString : LStrHandle.Rejects ⟨1⟩ twoGiB.val Bump.fullString
    (LStrHandle.set (.ok (Bump.api .w64)) ⟨1⟩ twoGiB.val Bump.fullString) := by
  have hinv : Bump.Inv Bump.fullString :=
    (LStrOwned.fromData_usable (Bump.lawful .w64) (Bump.inv_start 1 [0, 0, 2]) rfl).inv
  have hcode : ((Bump.api .w64).setHandleSize ⟨1⟩ (LStr.sizeWithData twoGiB.val)
      Bump.fullString).1 = ⟨2⟩ := rfl
  refine ((rejects_iff (Bump.lawful .w64) twoGiB hinv).1 ⟨1⟩).mpr ?_
  rw [LStrHandle.Refused, hcode]
  decide

/-- 2 GiB are accepted wherever there is room for them. -/
theorem not_rejects : ¬ LStrHandle.Rejects ⟨1⟩ twoGiB.val (Bump.withString 1)
    (LStrHandle.set (.ok (Bump.api .w64)) ⟨1⟩ twoGiB.val (Bump.withString 1)) := by
  have hcode : ((Bump.api .w64).setHandleSize ⟨1⟩ (LStr.sizeWithData twoGiB.val)
      (Bump.withString 1)).1 = .SUCCESS := rfl
  rw [LStrHandle.set_rejects_iff (Bump.lawful .w64) ⟨1⟩ twoGiB (Bump.withString_usable 1).inv]
  exact fun href => href hcode

end LvInterop
