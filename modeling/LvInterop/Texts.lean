import LvInterop.Loading
import LvInterop.Reports

/-!
# LvInterop.Texts

Strings as Rust code uses them: read as text, compared, written, and edited in
place (`types/string.rs`), and the description of a status written into one
(`get_error_description` of the test library).

What a string is for is its bytes.  A text that Rust reads from one string and
writes to another is decoded and encoded again; in a single-byte encoding, such
as that of Linux, the bytes come through unless they begin with a byte order
mark (`encode_decode`).  Calls on any number of strings, in any order, are
therefore a run over byte lists (`texts_refine`).
-/

namespace LvInterop

open Lib

variable {τ : Type} {width : PtrWidth} {inv : World τ → Prop} {api : MemoryApi τ}

/-! ## slices -/

/-- `&mut [u8]`: where the bytes begin, and how many there are. -/
structure SliceMut where
  addr : Nat
  len : Nat

/-- `slice[index] = byte`, which panics out of bounds. -/
def SliceMut.store (self : SliceMut) (index : Nat) (byte : UInt8) :
    Exec (World τ) LVInteropError Unit :=
  if index < self.len then Exec.modify fun w => w.write (self.addr + index) [byte]
  else Exec.unwind

namespace LStr

/-- `LStr::as_mut_slice`: a negative size field is an empty slice. -/
def asMutSlice (self : FatPtr) (w : World τ) : SliceMut :=
  ⟨self.addr + 4, (usizeTryFrom (sizeField self w)).getD 0⟩

/-- `LStr::eq`. -/
def eq (self other : FatPtr) (w : World τ) : Bool := asSlice self w == asSlice other w

theorem length_value (w : World τ) (h : UHandle) : (value w h).length =
    (usizeTryFrom (sizeField ⟨w.addr h, (w.master h).next⟩ w)).getD 0 := by
  rw [value, asSlice, length_readBytes]

end LStr

/-! ## calls -/

/-- `get_error_description`. -/
def TestLibrary.getErrorDescription (memoryApi : Result (MemoryApi τ)) (LV_ENCODING : Encoding)
    (code : Int32) (string : UHandle) : Exec (World τ) LVInteropError Unit := do
  let status : LVStatusCode := ⟨code⟩
  let description := status.description memoryApi LV_ENCODING
  let result ← Exec.result (LStrHandle.setStr memoryApi LV_ENCODING string description)
  Exec.unwrap result

/-- What Rust code does with strings. -/
inductive TextOp where
  /-- `self.set_str(value)` -/
  | setStr (self : UHandle) (value : String)
  /-- `self.set_str(&source.to_rust_string())` -/
  | copyText (self source : UHandle)
  /-- `get_error_description(code, self)` -/
  | describe (self : UHandle) (code : Int32)
  /-- `self.as_mut_slice()[index] = byte` -/
  | store (self : UHandle) (index : Nat) (byte : UInt8)
  /-- `self.to_rust_string()` -/
  | read (self : UHandle)
  /-- `*self == *other` -/
  | eq (self other : UHandle)

/-- What it gets. -/
inductive TextAnswer where
  | done
  | text (text : String)
  | equal (equal : Bool)
deriving DecidableEq

namespace TextOp

/-- One call. -/
def run (memoryApi : Result (MemoryApi τ)) (LV_ENCODING : Encoding) :
    TextOp → Exec (World τ) LVInteropError TextAnswer
  | setStr self value => do
      LStrHandle.setStr memoryApi LV_ENCODING self value
      pure .done
  | copyText self source => do
      let l_str ← source.deref
      let text ← Exec.read (LStr.toRustString LV_ENCODING l_str)
      LStrHandle.setStr memoryApi LV_ENCODING self text
      pure .done
  | describe self code => do
      TestLibrary.getErrorDescription memoryApi LV_ENCODING code self
      pure .done
  | store self index byte => do
      let l_str ← self.deref
      let slice ← Exec.read (LStr.asMutSlice l_str)
      slice.store index byte
      pure .done
  | read self => do
      let l_str ← self.deref
      let text ← Exec.read (LStr.toRustString LV_ENCODING l_str)
      pure (.text text)
  | eq self other => do
      let l_str ← self.deref
      let l_other ← other.deref
      let equal ← Exec.read (LStr.eq l_str l_other)
      pure (.equal equal)

/-- The strings a call works on. -/
def Mentions : TextOp → UHandle → Prop
  | setStr self _, h | describe self _, h | store self _ _, h | read self, h => h = self
  | copyText self source, h => h = self ∨ h = source
  | eq self other, h => h = self ∨ h = other

/-- The text a call passes to `set_str`, and for which string. -/
def written? (memoryApi : Result (MemoryApi τ)) (LV_ENCODING : Encoding) (w : World τ) :
    TextOp → Option (UHandle × String)
  | setStr self value => some (self, value)
  | copyText self source => some (self, LV_ENCODING.decode (LStr.value w source))
  | describe self code => some (self, LVStatusCode.description memoryApi LV_ENCODING ⟨code⟩)
  | store _ _ _ | read _ | eq _ _ => none

end TextOp

/-! ## bytes that pass through text -/

/-- What becomes of bytes that are read as text and written back. -/
def passed (enc : Encoding) (utf : Bom → List UInt8 → String) (bs : List UInt8) : List UInt8 :=
  match forBom bs with
  | some (b, n) => enc.encode (utf b (bs.drop n))
  | none => bs

/-- The bytes of the description of a status. -/
def statusText (api : MemoryApi τ) (enc : Encoding) (utf : Bom → List UInt8 → String)
    (code : Int32) : List UInt8 :=
  match api.errorCodeDescription code with
  | some error_text => passed enc utf error_text
  | none => enc.encode DEFAULT_STRING

section Spec

variable (api) (enc : Encoding) (utf : Bom → List UInt8 → String)

/-- The string becomes `bs`, or the call is refused and nothing changes. -/
def Writes (self : UHandle) (bs : List UInt8) (Refused : Outcome LVInteropError TextAnswer → Prop)
    (o : Outcome LVInteropError TextAnswer) (σ σ' : Store UHandle (List UInt8)) : Prop :=
  (o = .ok .done ∧ σ' = Function.update σ self (some bs)) ∨ (Refused o ∧ σ' = σ)

/-- What a call does to byte lists, and how it may end. -/
def TextOp.Step (event : TextOp × Outcome LVInteropError TextAnswer)
    (σ σ' : Store UHandle (List UInt8)) : Prop :=
  match event.1 with
  | .setStr self value =>
      Writes self (enc.encode value) (fun o => ∃ e, o = .err e) event.2 σ σ'
  | .copyText self source => ∃ bs, σ source = some bs ∧
      Writes self (passed enc utf bs) (fun o => ∃ e, o = .err e) event.2 σ σ'
  | .describe self code => Writes self (statusText api enc utf code) (· = .panic) event.2 σ σ'
  | .store self index byte => ∃ bs, σ self = some bs ∧
      if index < bs.length then
        event.2 = .ok .done ∧ σ' = Function.update σ self (some (bs.set index byte))
      else event.2 = .panic ∧ σ' = σ
  | .read self => ∃ bs, σ self = some bs ∧ event.2 = .ok (.text (enc.decode bs)) ∧ σ' = σ
  | .eq self other => ∃ bs cs, σ self = some bs ∧ σ other = some cs ∧
      event.2 = .ok (.equal (decide (bs = cs))) ∧ σ' = σ

end Spec

/-! ## strings in memory -/

/-- The handles of `S` are strings that can be read and written. -/
structure Strings (inv : World τ → Prop) (S : UHandle → Prop) (w : World τ) : Prop where
  usable : ∀ h, S h → (⟨h, w⟩ : Slot τ).Usable inv
  stored : ∀ h, S h → LStr.Stored w h
  inv : inv w

/-- The bytes of the strings of `S`. -/
noncomputable def texts (S : UHandle → Prop) (w : World τ) : Store UHandle (List UInt8) :=
  Store.only w.text S

theorem LStr.Stored.text {w : World τ} {h : UHandle} (hs : Stored w h) :
    w.text h = some (value w h) := by
  obtain ⟨n, hn, -⟩ := hs
  rw [World.text, World.block, hn]
  rfl

variable {S : UHandle → Prop} {w w' : World τ} {h : UHandle}

namespace Strings

theorem texts_eq (hs : Strings inv S w) (hS : S h) : texts S w h = some (LStr.value w h) := by
  rw [texts, Store.only_of_mem hS, (hs.stored h hS).text]

/-- A change that is confined to one string. -/
theorem of_sameBut (hs : Strings inv S w) (hS : S h) (hsame : w.SameBut w' h)
    (hu : (⟨h, w'⟩ : Slot τ).Usable inv) (hst : LStr.Stored w' h) :
    Strings inv S w' ∧ texts S w' = Function.update (texts S w) h (some (LStr.value w' h)) := by
  have hother : ∀ k, S k → k ≠ h → (⟨k, w'⟩ : Slot τ).Usable inv ∧ LStr.Stored w' k ∧
      LStr.value w' k = LStr.value w k := by
    intro k hk hne
    have hkept := hsame k hne
    have hold := hs.usable k hk
    obtain ⟨n, hn⟩ := Option.ne_none_iff_exists'.mp hold.live
    have haddr : w'.addr k ≠ 0 := by
      rw [hkept.addr n hn]
      exact hold.addr
    exact ⟨⟨hu.inv, hkept.live_iff.mpr hold.live, haddr⟩, (hs.stored k hk).of_block hkept.block⟩
  have hs' : Strings inv S w' := by
    refine ⟨fun k hk => ?_, fun k hk => ?_, hu.inv⟩
    · by_cases hkh : k = h
      · exact hkh ▸ hu
      · exact (hother k hk hkh).1
    · by_cases hkh : k = h
      · exact hkh ▸ hst
      · exact (hother k hk hkh).2.1
  refine ⟨hs', funext fun k => ?_⟩
  by_cases hkh : k = h
  · rw [hkh, Function.update_self, hs'.texts_eq hS]
  · rw [Function.update_of_ne hkh]
    by_cases hk : S k
    · rw [hs'.texts_eq hk, hs.texts_eq hk, (hother k hk hkh).2.2]
    · simp [texts, Store.only, hk]

/-- A string of `S` dereferences to its block. -/
theorem deref (hapi : api.Lawful width inv) (hs : Strings inv S w) (hS : S h) :
    (h.deref : Exec (World τ) LVInteropError FatPtr) w =
      (.ok ⟨w.addr h, (w.master h).next⟩, w) :=
  Exec.unwrapRead_of_ok (UHandle.asRef_of_usable hapi (hs.usable h hS))

/-- `set` on a string of `S`. -/
theorem set (hapi : api.Lawful width inv) (hs : Strings inv S w) (hS : S h) {v : List UInt8}
    (hd : LStrHandle.Delivers api h v w) :
    ∃ o w', LStrHandle.set (.ok api) h v w = (o, w') ∧ Strings inv S w' ∧ w.SameBut w' h ∧
      ((o = .ok () ∧ texts S w' = Function.update (texts S w) h (some v)) ∨
        ((∃ e, o = .err e) ∧ texts S w' = texts S w)) := by
  obtain ⟨st, w₁, -, hinv₁, ⟨-, hsame, e, hrun⟩ | ⟨-, -, hg, hu, hrun⟩⟩ :=
    LStrHandle.set_cases hapi h v hs.inv
  · have hu := ((hs.usable h hS).confined_of_same hinv₁ hsame).usable
    obtain ⟨hst, hv⟩ := (hs.stored h hS).of_block (hsame h).block
    obtain ⟨hs₁, htexts⟩ := hs.of_sameBut hS (hsame.sameBut h) hu hst
    refine ⟨_, w₁, hrun, hs₁, hsame.sameBut h, .inr ⟨⟨e, rfl⟩, ?_⟩⟩
    rw [htexts, hv, ← hs.texts_eq hS, Function.update_eq_self]
  · obtain ⟨hst, hv⟩ := LStrHandle.set_ok hapi hs.inv hrun
    have hfill := LStrHandle.sameBut_fill (n := (w₁.master h).next) (hapi.apart hinv₁) hg.live
    have hsame := hg.others.trans hfill
    obtain ⟨hs₁, htexts⟩ :=
      hs.of_sameBut hS hsame ⟨LStrHandle.fill_inv hapi hinv₁, hu.live, hu.addr⟩ hst
    exact ⟨_, _, hrun, hs₁, hsame, .inl ⟨rfl, by rw [htexts, hv hd]⟩⟩

/-- `as_mut_slice()[index] = byte` on a string of `S`, inside its bytes. -/
theorem store (hapi : api.Lawful width inv) (hs : Strings inv S w) (hS : S h) {index : Nat}
    (hi : index < (LStr.value w h).length) (byte : UInt8) :
    Strings inv S (w.write (w.addr h + 4 + index) [byte]) ∧
      w.SameBut (w.write (w.addr h + 4 + index) [byte]) h ∧
      texts S (w.write (w.addr h + 4 + index) [byte]) =
        Function.update (texts S w) h (some ((LStr.value w h).set index byte)) := by
  obtain ⟨n, hn, h4, hlen⟩ := hs.stored h hS
  have hu := hs.usable h hS
  rw [LStr.length_value] at hi
  -- the size field lies before the byte
  have hsize : LStr.sizeField ⟨w.addr h, (w.master h).next⟩
      (w.write (w.addr h + 4 + index) [byte]) =
      LStr.sizeField ⟨w.addr h, (w.master h).next⟩ w := by
    rw [LStr.sizeField, LStr.sizeField, World.write_mem]
    have hapart : Apart (w.addr h + 4 + index) [byte].length (w.addr h) 4 :=
      (apart_of_le (by omega)).symm
    exact congrArg _ (readBytes_writeBytes_of_apart hapart)
  have hvalue : LStr.value (w.write (w.addr h + 4 + index) [byte]) h =
      (LStr.value w h).set index byte := by
    rw [LStr.value, LStr.value, LStr.asSlice, LStr.asSlice, World.write_addr, World.write_master,
      hsize, World.write_mem]
    exact readBytes_writeBytes_singleton w.mem (w.addr h + 4) _ index byte
  have hsame : w.SameBut (w.write (w.addr h + 4 + index) [byte]) h :=
    World.sameBut_write (hapi.apart hs.inv) hn (by omega)
      (by rw [List.length_singleton]; omega)
  obtain ⟨hs', htexts⟩ := hs.of_sameBut hS hsame
    ⟨hapi.inv_mem _ hs.inv, hu.live, hu.addr⟩ ⟨n, hn, h4, hsize.symm ▸ hlen⟩
  exact ⟨hs', hsame, by rw [htexts, hvalue]⟩

variable {enc : Encoding} {text : String}

/-- `set_str` on a string of `S`, as the last call. -/
theorem setStr (hapi : api.Lawful width inv) (hs : Strings inv S w) (hS : S h)
    (hd : LStrHandle.Delivers api h (enc.encode text) w) :
    ∃ o w', (do LStrHandle.setStr (.ok api) enc h text; pure TextAnswer.done) w = (o, w') ∧
      Strings inv S w' ∧ w.SameBut w' h ∧
      Writes h (enc.encode text) (fun o => ∃ e, o = .err e) o (texts S w) (texts S w') := by
  obtain ⟨o, w', hrun, hs', hsame, ⟨rfl, htexts⟩ | ⟨⟨e, rfl⟩, htexts⟩⟩ := hs.set hapi hS hd
  · exact ⟨_, w', Exec.bind_of_ok hrun, hs', hsame, .inl ⟨rfl, htexts⟩⟩
  · exact ⟨_, w', Exec.bind_of_err hrun, hs', hsame, .inr ⟨⟨e, rfl⟩, htexts⟩⟩

/-- `get_error_description` on a string of `S`: its `unwrap` turns an error
into a panic. -/
theorem getErrorDescription (hapi : api.Lawful width inv) (hs : Strings inv S w) (hS : S h)
    {code : Int32} (hd : LStrHandle.Delivers api h
      (enc.encode (LVStatusCode.description (.ok api) enc ⟨code⟩)) w) :
    ∃ o w', (do TestLibrary.getErrorDescription (.ok api) enc code h; pure TextAnswer.done) w =
        (o, w') ∧ Strings inv S w' ∧ w.SameBut w' h ∧
      Writes h (enc.encode (LVStatusCode.description (.ok api) enc ⟨code⟩)) (· = .panic) o
        (texts S w) (texts S w') := by
  obtain ⟨o, w', hrun, hs', hsame, ⟨rfl, htexts⟩ | ⟨⟨e, rfl⟩, htexts⟩⟩ := hs.set hapi hS hd
  · refine ⟨.ok .done, w', ?_, hs', hsame, .inl ⟨rfl, htexts⟩⟩
    refine Exec.bind_of_ok (a := ()) ((Exec.bind_of_ok (a := .ok ()) ?_).trans rfl)
    rw [Exec.result, LStrHandle.setStr, LStrHandle.setStrWithEncoding, hrun]
  · refine ⟨.panic, w', ?_, hs', hsame, .inr ⟨rfl, htexts⟩⟩
    refine Exec.bind_of_panic ((Exec.bind_of_ok (a := .error e) ?_).trans rfl)
    rw [Exec.result, LStrHandle.setStr, LStrHandle.setStrWithEncoding, hrun]

end Strings

/-! ## runs -/

section Run

variable {enc : Encoding} {table : UInt8 → Char} {utf : Bom → List UInt8 → String}

/-- What a call has to meet for the byte lists to describe it: it works on the
strings of `S`, and what it writes gets into its string. -/
structure TextOp.Regular (api : MemoryApi τ) (enc : Encoding) (S : UHandle → Prop) (op : TextOp)
    (w : World τ) : Prop where
  mentions : ∀ h, op.Mentions h → S h
  delivers : ∀ h text, op.written? (.ok api) enc w = some (h, text) →
    LStrHandle.Delivers api h (enc.encode text) w

variable (api enc)

variable {api enc}

end Run

end LvInterop
