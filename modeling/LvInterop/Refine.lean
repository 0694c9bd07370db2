import LvInterop.Values

/-!
# LvInterop.Refine

The machine refines the store of values.

Each operation that succeeds leaves behind the handle it returns what
`Op.Yields` allows (one lemma for each group of operations), and nothing else
is seen to change (`Effect.store_eq`).  Along a run of legal operations the
values behind the handles a program holds are therefore those of a run of the
store (`run_refines`).

The runs are those in which an array comes with its header and a string gets
the bytes it is given: `set` copies no more bytes than the word behind the
master pointer says (`Op.Delivers`).
-/

namespace LvInterop

open Lib

variable {τ : Type} {width : PtrWidth} {inv : World τ → Prop} {api : MemoryApi τ}

/-! ## texts -/

/-- The size field never counts more bytes than were given. -/
theorem usizeTryFrom_ofNat_le (n : Nat) : (usizeTryFrom (Int32.ofNat n)).getD 0 ≤ n := by
  have hi : (Int32.ofNat n).toInt = (n : Int).bmod (2 ^ 32) := Int32.toInt_ofNat'
  rw [usizeTryFrom, hi, Int.bmod_def]
  split_ifs <;> simp <;> omega

namespace LStrHandle

/-- The string that `set` writes is short enough for its size field and for the
reference it is written through. -/
def Delivers (api : MemoryApi τ) (h : UHandle) (v : List UInt8) (w : World τ) : Prop :=
  v.length < 2 ^ 31 ∧ v.length ≤ sliceLen api h v w

/-- What a `set` that succeeds leaves. -/
theorem set_ok (hapi : api.Lawful width inv) {h : UHandle} {v : List UInt8} {w w' : World τ}
    (hinv : inv w) (hrun : set (.ok api) h v w = (.ok (), w')) :
    LStr.Stored w' h ∧ (Delivers api h v w → LStr.value w' h = v) := by
  obtain ⟨st, w₁, hr, -, ⟨-, -, e, hset⟩ | ⟨-, -, hg, -, hset⟩⟩ := set_cases hapi h v hinv
  · cases hset.symm.trans hrun
  · obtain rfl := (Prod.mk.inj (hset.symm.trans hrun)).2
    have hsize := sizeField_fill v ⟨w₁.addr h, (w₁.master h).next⟩ ⟨w₁.addr h, (w₁.master h).next⟩ w₁ rfl
    refine ⟨⟨LStr.sizeWithData v, hg.live, Nat.le_add_right _ _, ?_⟩, ?_⟩
    · rw [fill_addr, fill_master, hsize, LStr.sizeWithData]
      exact Nat.add_le_add_left (usizeTryFrom_ofNat_le _) _
    · rintro ⟨hv, hlen⟩
      rw [sliceLen, hr] at hlen
      exact asSlice_fill hv _ _ w₁ rfl hlen

end LStrHandle

/-! ## constructors -/

namespace OwnedUHandle

/-- A `new_unsized` that succeeds has run `init_routine` on its fresh handle. -/
theorem newUnsized_ok (hapi : api.Lawful width inv) {init : Exec (Slot τ) LVInteropError Unit}
    {w w' : World τ} {h : UHandle} (hinv : inv w)
    (hrun : newUnsized (.ok api) init w = (.ok h, w')) :
    ∃ s, Fresh api inv w s ∧ init s = (.ok (), ⟨h, w'⟩) := by
  obtain ⟨w₀, -, -, -, hr⟩ | ⟨s, hf, hr⟩ := newUnsized_cases hapi hinv init
  · cases hr.symm.trans hrun
  · have hwrap := hr.symm.trans hrun
    rcases hi : init s with ⟨o, s'⟩
    rw [hi] at hwrap
    cases o with
    | ok u =>
        obtain ⟨ho, rfl⟩ := Prod.mk.inj hwrap
        obtain rfl := Outcome.ok.inj ho
        exact ⟨s, hf, hi⟩
    | err e => cases hwrap
    | panic => cases hwrap

/-- `new` stores the value. -/
theorem new_block (hapi : api.Lawful width inv) {value : List UInt8} {w w' : World τ} {h : UHandle}
    (hinv : inv w) (hrun : new (.ok api) value w = (.ok h, w')) : w'.block h = some value := by
  rcases hn : api.newHandle value.length w with ⟨h₁, w₁⟩
  obtain ⟨-, ⟨rfl, -⟩ | ⟨-, hg⟩⟩ := hapi.new hinv hn
  · simp [new, hn] at hrun
  · by_cases hnull : h₁ = .null
    · simp [new, hn, hnull] at hrun
    · have hr : new (.ok api) value w = (.ok h₁, w₁.write (w₁.addr h₁) value) := by
        simp [new, hn, hnull]
      obtain ⟨ho, rfl⟩ := Prod.mk.inj (hr.symm.trans hrun)
      obtain rfl := Outcome.ok.inj ho
      rw [World.block, World.write_live, hg.live, Option.map_some, World.write_mem,
        World.write_addr, readBytes_writeBytes]

end OwnedUHandle

/-! ## one operation -/

section Served

variable {rt : Runtime τ} {op : Op} {m m' : Machine τ} {h : UHandle}

/-- `set` gets all its bytes into the string. -/
def Op.Delivers (rt : Runtime τ) (op : Op) (m : Machine τ) : Prop :=
  match op with
  | .fromData data =>
      LStrHandle.Delivers rt.api (rt.newSlot m).handle data (rt.newSlot m).world
  | .set self value => LStrHandle.Delivers rt.api self value m.world
  | .setStr self value => LStrHandle.Delivers rt.api self (rt.LV_ENCODING.encode value) m.world
  | _ => True

/-- What a step that returns `h` leaves behind it. -/
structure Served (rt : Runtime τ) (op : Op) (m : Machine τ) (h : UHandle) (m' : Machine τ) : Prop where
  ne_null : h ≠ .null
  yields : op.Yields rt (m.store rt.width) h (m'.store rt.width h)
  stored : m'.types h = some .lStr → LStr.Stored m'.world h

/-- No value is held behind a handle the manager does not know. -/
theorem Machine.Typed.store_eq_none (ht : m.Typed rt.width inv) (hfresh : m.world.live h = none) :
    m.store rt.width h = none := by
  cases hty : m.types h with
  | none => simp [Machine.store, hty]
  | some ty => exact absurd hfresh (ht h ty hty).1.live

/-- The value behind a handle that was just given a type. -/
theorem Machine.store_update (w : World τ) (owned : List UHandle) (types : UHandle → Option HandleTy)
    (h : UHandle) (ty : Option HandleTy) : Machine.store width ⟨w, owned, Function.update types h ty⟩ h =
      ty.map fun t => t.value width w h := by
  simp [Machine.store]

/-- A constructor that returned. -/
theorem Machine.create_ok {ty : Option HandleTy} {x : Exec (World τ) LVInteropError UHandle}
    (hrun : m.create ty x = (.ok h, m')) : ∃ w, x m.world = (.ok h, w) ∧
      m' = ⟨w, h :: m.owned, Function.update m.types h ty⟩ := by
  rcases hx : x m.world with ⟨o, w⟩
  rw [Machine.create, hx] at hrun
  cases o with
  | ok h' =>
      obtain ⟨ho, rfl⟩ := Prod.mk.inj hrun
      obtain rfl := Outcome.ok.inj ho
      exact ⟨w, rfl, rfl⟩
  | err e => cases (Prod.mk.inj hrun).1
  | panic => cases (Prod.mk.inj hrun).1

/-- A method on a handle variable that returned. -/
theorem Machine.onVariable_ok {self : UHandle} {ty : Option HandleTy}
    {x : Exec (Slot τ) LVInteropError Unit} (hrun : m.onVariable self ty x = (.ok h, m')) :
    ∃ w, x ⟨self, m.world⟩ = (.ok (), ⟨h, w⟩) ∧
      m' = ⟨w, m.owned, if h = self then m.types else Function.update m.types h ty⟩ := by
  rcases hx : x ⟨self, m.world⟩ with ⟨o, h', w⟩
  simp only [Machine.onVariable, hx] at hrun
  cases o with
  | ok u =>
      obtain ⟨ho, rfl⟩ := Prod.mk.inj hrun
      obtain rfl := Outcome.ok.inj ho
      exact ⟨w, rfl, rfl⟩
  | err e => cases (Prod.mk.inj hrun).1
  | panic => cases (Prod.mk.inj hrun).1

/-- A fresh handle, as far as the store can tell. -/
theorem fresh_of_new (hapi : rt.api.Lawful rt.width inv) (ht : m.Typed rt.width inv) {s : Slot τ}
    (hf : OwnedUHandle.Fresh rt.api inv m.world s) : s.handle ≠ .null ∧ m.store rt.width s.handle = none :=
  ⟨UHandle.ne_null_of_live hapi hf.usable.inv hf.usable.live, ht.store_eq_none hf.unknown⟩

theorem served_new (hapi : rt.api.Lawful rt.width inv) (hinv : inv m.world)
    (ht : m.Typed rt.width inv) {value : List UInt8} (hrun : rt.run (.new value) m = (.ok h, m')) :
    Served rt (.new value) m h m' := by
  obtain ⟨w, hx, rfl⟩ := Machine.create_ok hrun
  have hblock := OwnedUHandle.new_block hapi hinv hx
  obtain ⟨w₁, -, ⟨-, hr⟩ | ⟨h₁, hfresh, hu, -, hr⟩⟩ := OwnedUHandle.new_cases hapi hinv value
  · cases hr.symm.trans hx
  · obtain ⟨ho, rfl⟩ := Prod.mk.inj (hr.symm.trans hx)
    obtain rfl := Outcome.ok.inj ho
    refine ⟨UHandle.ne_null_of_live hapi hu.inv hu.live, ⟨ht.store_eq_none hfresh, ?_⟩, ?_⟩
    · rw [Machine.store_update, Option.map_some, HandleTy.value, hblock, Option.getD_some]
    · simp

/-- `from_data`, and `empty_string`, which is `from_data` of nothing. -/
theorem served_fromData (hapi : rt.api.Lawful rt.width inv) (hinv : inv m.world)
    (ht : m.Typed rt.width inv) {data : List UInt8}
    (hd : LStrHandle.Delivers rt.api (rt.newSlot m).handle data (rt.newSlot m).world)
    (hrun : m.create (some .lStr) (LStrOwned.fromData (.ok rt.api) data) = (.ok h, m')) :
    h ≠ .null ∧ m.store rt.width h = none ∧ m'.store rt.width h = some (.lStr data) ∧
      LStr.Stored m'.world h := by
  obtain ⟨w, hx, rfl⟩ := Machine.create_ok hrun
  obtain ⟨s, hf, hinit⟩ := OwnedUHandle.newUnsized_ok hapi hinv hx
  obtain ⟨hnull, hnone⟩ := fresh_of_new hapi ht hf
  rw [Runtime.newSlot_of_fresh hf] at hd
  rcases hset : LStrHandle.set (.ok rt.api) s.handle data s.world with ⟨o, w₁⟩
  simp only [Slot.onWorld, hset] at hinit
  obtain ⟨rfl, hs⟩ := Prod.mk.inj hinit
  obtain ⟨rfl, rfl⟩ := Slot.mk.inj hs
  obtain ⟨hstored, hvalue⟩ := LStrHandle.set_ok hapi hf.usable.inv hset
  refine ⟨hnull, hnone, ?_, hstored⟩
  rw [Machine.store_update, Option.map_some, HandleTy.value, hvalue hd]

/-- `new_empty`, where it does not take what it finds for a header. -/
theorem served_newEmpty (hapi : rt.api.Lawful rt.width inv) (hinv : inv m.world)
    (ht : m.Typed rt.width inv) {D : Nat} {T : NumericArrayResizable}
    (hrun : rt.run (.newEmpty D T) m = (.ok h, m')) : Served rt (.newEmpty D T) m h m' := by
  obtain ⟨w, hx, rfl⟩ := Machine.create_ok hrun
  obtain ⟨s, hf, hinit⟩ := OwnedUHandle.newUnsized_ok hapi hinv hx
  obtain ⟨s₁, hc, ⟨-, e, hr⟩ | ⟨hr, hdims⟩⟩ :=
    LVArrayHandle.resizeArray_stores hapi T (.newEmpty D) hf.usable
  · cases hr.symm.trans hinit
  · obtain rfl := (Prod.mk.inj (hr.symm.trans hinit)).2
    obtain ⟨hnull, hnone⟩ := fresh_of_new hapi ht hf
    have hh : h = s.handle := hc.handle
    subst hh
    refine ⟨hnull, ⟨hnone, LVArray.value rt.width D T w s.handle, hdims, ?_⟩, ?_⟩
    · rw [Machine.store_update, Option.map_some, HandleTy.value]
    · simp

/-- A copy of a block that is held at a type. -/
theorem Machine.Readable.copy (hr : m.Readable rt.width) {self : UHandle} {w : World τ}
    (hb : m.types self ≠ none → w.block h = m.world.block self) :
    ((m.types self).map fun t => t.value rt.width w h) = m.store rt.width self ∧
      (m.types self = some .lStr → LStr.Stored w h) := by
  cases hty : m.types self with
  | none => simp [Machine.store, hty]
  | some t =>
      have hread := hr self t hty
      have hblock := hb (by simp [hty])
      refine ⟨?_, fun hs => ?_⟩
      · rw [Machine.store, hty, Option.map_some, Option.map_some, hread.value_eq hblock]
      · exact (hread.of_block hblock).stored (Option.some.inj hs)

/-- `try_clone` and `try_to_owned`. -/
theorem served_clone (hapi : rt.api.Lawful rt.width inv) (hinv : inv m.world)
    (ht : m.Typed rt.width inv) (hr : m.Readable rt.width) {self : UHandle}
    (hrun : m.create (m.types self) (self.tryToOwned (.ok rt.api)) = (.ok h, m')) :
    h ≠ .null ∧ m.store rt.width h = none ∧ m'.store rt.width h = m.store rt.width self ∧
      (m'.types h = some .lStr → LStr.Stored m'.world h) := by
  obtain ⟨w, hx, rfl⟩ := Machine.create_ok hrun
  obtain ⟨s, hf, hinit⟩ := OwnedUHandle.newUnsized_ok hapi hinv hx
  obtain ⟨hnull, hnone⟩ := fresh_of_new hapi ht hf
  have hh : h = s.handle :=
    ((UHandle.cloneIntoPointer_effect hapi self hf.usable.inv).confined_of_usable hapi
      hf.usable).handle ▸ by rw [hinit]
  subst hh
  have hblock : m.types self ≠ none → w.block s.handle = m.world.block self := by
    intro hty
    obtain ⟨t, hty⟩ := Option.ne_none_iff_exists'.mp hty
    exact UHandle.tryToOwned_block hapi hinv (ht self t hty).1.live hx
  obtain ⟨hvalue, hstored⟩ := hr.copy hblock
  refine ⟨hnull, hnone, ?_, fun hty => ?_⟩
  · rw [Machine.store_update, hvalue]
  · exact hstored (by simpa using hty)

theorem served_cloneIntoPointer (hapi : rt.api.Lawful rt.width inv) (hinv : inv m.world)
    (ht : m.Typed rt.width inv) (hr : m.Readable rt.width) {self other : UHandle}
    (hwt : ∀ ty, m.types other = some ty → m.types self = some ty)
    (hrun : rt.run (.cloneIntoPointer self other) m = (.ok h, m')) :
    Served rt (.cloneIntoPointer self other) m h m' := by
  obtain ⟨w, hx, rfl⟩ := Machine.onVariable_ok hrun
  have hblock : w.block h = m.world.block self :=
    UHandle.cloneIntoPointer_block (s := ⟨other, m.world⟩) hapi hinv hx
  obtain ⟨hvalue, hstored⟩ := hr.copy (h := h) fun _ => hblock
  obtain ⟨s', hinv', ⟨e, hr', -⟩ | ⟨hr', htarget, n, -, -, hg, -⟩⟩ :=
    UHandle.cloneIntoPointer_cases (s := ⟨other, m.world⟩) hapi self hinv
  · cases hr'.symm.trans hx
  · obtain rfl := (Prod.mk.inj (hr'.symm.trans hx)).2
    have hn' : w.live h = some n := hg.live
    have hnull : h ≠ .null := UHandle.ne_null_of_live hapi hinv' (by simp [World.Live, hn'])
    obtain ⟨hnullv, hfresh⟩ | ⟨-, hh, -⟩ := htarget
    · obtain rfl : other = .null := hnullv
      rw [if_neg hnull]
      refine ⟨hnull, .inr ⟨rfl, ht.store_eq_none hfresh, ?_⟩, ?_⟩
      · rw [Machine.store_update, hvalue]
      · simpa using hstored
    · obtain rfl : h = other := hh
      rw [if_pos rfl]
      refine ⟨hnull, .inl ⟨rfl, ?_⟩, fun hty => hstored (hwt _ hty)⟩
      cases hty : m.types h with
      | none => simp [Machine.store, hty]
      | some t =>
          rw [hwt t hty, Option.map_some] at hvalue
          simpa [Machine.store, hty] using hvalue

/-- `set`, and `set_str`, which is `set` of the encoded text. -/
theorem served_set (hapi : rt.api.Lawful rt.width inv) (hinv : inv m.world) {self : UHandle}
    {v : List UInt8} (hwt : ∀ ty, m.types self = some ty → ty = .lStr)
    (hd : LStrHandle.Delivers rt.api self v m.world)
    (hrun : m.onVariable self none (Slot.onWorld fun h => LStrHandle.set (.ok rt.api) h v) =
      (.ok h, m')) :
    h ≠ .null ∧ h = self ∧
      m'.store rt.width h = (m.store rt.width self).map (fun _ => Value.lStr v) ∧
      LStr.Stored m'.world h := by
  obtain ⟨w, hx, rfl⟩ := Machine.onVariable_ok hrun
  rcases hset : LStrHandle.set (.ok rt.api) self v m.world with ⟨o, w₁⟩
  simp only [Slot.onWorld, hset] at hx
  obtain ⟨rfl, hs⟩ := Prod.mk.inj hx
  obtain ⟨rfl, rfl⟩ := Slot.mk.inj hs
  obtain ⟨hstored, hvalue⟩ := LStrHandle.set_ok hapi hinv hset
  obtain ⟨st, w₂, -, -, ⟨-, -, e, hr⟩ | ⟨-, hl, -⟩⟩ := LStrHandle.set_cases hapi self v hinv
  · cases hr.symm.trans hset
  · refine ⟨UHandle.ne_null_of_live hapi hinv hl, rfl, ?_, hstored⟩
    rw [if_pos rfl]
    cases hty : m.types self with
    | none => simp [Machine.store, hty]
    | some t =>
        obtain rfl := hwt t hty
        simp [Machine.store, hty, HandleTy.value, hvalue hd]

/-- `resize_array` of an array that is held at its type. -/
theorem served_resizeArray_of_typed (hapi : rt.api.Lawful rt.width inv) (hinv : inv m.world)
    (ht : m.Typed rt.width inv) {self : UHandle} {D : Nat} {T : NumericArrayResizable}
    {dims : LVArrayDims D} (hty : m.types self = some (.lvArray D T))
    (hrun : rt.run (.resizeArray self D T dims) m = (.ok h, m')) :
    Served rt (.resizeArray self D T dims) m h m' := by
  obtain ⟨w, hx, rfl⟩ := Machine.onVariable_ok hrun
  obtain ⟨hu, hf⟩ := ht self _ hty
  have hfront := LVArrayHandle.resizeArray_sameFront (s := ⟨self, m.world⟩) hapi dims hinv hf hx
  obtain ⟨s₁, hc, ⟨-, e, hr⟩ | ⟨hr, hdims⟩⟩ := LVArrayHandle.resizeArray_stores hapi T dims hu
  · cases hr.symm.trans hx
  · obtain rfl := (Prod.mk.inj (hr.symm.trans hx)).2
    obtain rfl : h = self := hc.handle
    rw [if_pos rfl]
    refine ⟨UHandle.ne_null_of_live hapi hinv hu.live, .inr (.inl ⟨rfl,
      LVArray.value rt.width D T m.world h, LVArray.value rt.width D T w h, ?_, hdims, hfront, ?_⟩), ?_⟩
    · simp [Machine.store, hty, HandleTy.value]
    · simp [Machine.store, hty, HandleTy.value]
    · simp [hty]

theorem served_resizeArray (hapi : rt.api.Lawful rt.width inv) (hinv : inv m.world)
    (ht : m.Typed rt.width inv) {self : UHandle} {D : Nat} {T : NumericArrayResizable}
    {dims : LVArrayDims D} (hwt : ∀ ty, m.types self = some ty → ty = .lvArray D T)
    (hrun : rt.run (.resizeArray self D T dims) m = (.ok h, m')) :
    Served rt (.resizeArray self D T dims) m h m' := by
  cases hty : m.types self with
  | some t =>
      rw [hwt t hty] at hty
      exact served_resizeArray_of_typed hapi hinv ht hty hrun
  | none =>
      obtain ⟨w, hx, rfl⟩ := Machine.onVariable_ok hrun
      have hnone : m.store rt.width self = none := by simp [Machine.store, hty]
      -- a handle that is held at no type stays so, unless it is a new one
      have hself : h = self → h ≠ .null → Served rt (.resizeArray self D T dims) m h
          ⟨w, m.owned, if h = self then m.types else Function.update m.types h (some (.lvArray D T))⟩ := by
        rintro rfl hnull
        rw [if_pos rfl]
        exact ⟨hnull, .inl ⟨rfl, hnone, by simp [Machine.store, hty]⟩, by simp [hty]⟩
      obtain ⟨⟨-, array, href, -⟩, hr⟩ | ⟨-, -, hr⟩ | ⟨-, st, s₁, -, -, ⟨-, -, -, e, hr⟩ |
          ⟨-, htarget, hu₁, -, hr⟩⟩ :=
        LVArrayHandle.resizeArray_cases (s := ⟨self, m.world⟩) hapi T dims hinv
      · obtain ⟨rfl, rfl⟩ := Slot.mk.inj (Prod.mk.inj (hr.symm.trans hx)).2
        refine hself rfl ?_
        rintro rfl
        simp [UHandle.asRef] at href
      · cases hr.symm.trans hx
      · cases hr.symm.trans hx
      · obtain ⟨rfl, rfl⟩ := Slot.mk.inj (Prod.mk.inj (hr.symm.trans hx)).2
        have hnull := UHandle.ne_null_of_live hapi hu₁.inv hu₁.live
        obtain ⟨hself', hfresh⟩ | ⟨-, hh, -⟩ := htarget
        · obtain rfl : self = .null := hself'
          rw [if_neg hnull]
          refine ⟨hnull, .inr (.inr ⟨rfl, ht.store_eq_none hfresh, LVArray.value rt.width D T
            (s₁.world.write (s₁.world.addr s₁.handle) dims.toBytes) s₁.handle, ?_, ?_⟩), ?_⟩
          · exact LVArray.dimSizes_write s₁.world _ dims
          · rw [Machine.store_update, Option.map_some, HandleTy.value]
          · simp
        · exact hself hh hnull

theorem served_setValueUnchecked (hapi : rt.api.Lawful rt.width inv) (hinv : inv m.world)
    (ht : m.Typed rt.width inv) {self : UHandle} {D : Nat} {T : NumericArrayResizable} {index : Nat}
    {value : T.Val} (hty : m.types self = some (.lvArray D T))
    (hrun : rt.run (.setValueUnchecked self D T index value) m = (.ok h, m')) :
    Served rt (.setValueUnchecked self D T index value) m h m' := by
  obtain ⟨w, hx, rfl⟩ := Machine.onVariable_ok hrun
  obtain ⟨hu, -⟩ := ht self _ hty
  have hr := @LVArrayHandle.setValueUnchecked_run _ rt.width D _ _ _ hapi _ hu index value
  obtain ⟨rfl, rfl⟩ := Slot.mk.inj (Prod.mk.inj (hr.symm.trans hx)).2
  rw [if_pos rfl]
  refine ⟨UHandle.ne_null_of_live hapi hinv hu.live, ⟨rfl, LVArray.value rt.width D T m.world self,
    LVArray.value rt.width D T (LVArray.setValueUnchecked rt.width D T (m.world.addr self) index value
      m.world) self, ?_, ?_, ?_, ?_⟩, ?_⟩
  · simp [Machine.store, hty, HandleTy.value]
  · exact LVArray.dimSizes_setValueUnchecked _ _ _ _
  · exact LVArray.dataAsSlice_setValueUnchecked _ _ _ _
  · simp [Machine.store, hty, HandleTy.value]
  · simp [hty]

theorem served_copyFromNdarray (hapi : rt.api.Lawful rt.width inv)
    (ht : m.Typed rt.width inv) {self : UHandle} {D : Nat} {T : NumericArrayResizable}
    (hnd : (rt.nd D T).Lawful) {view : ArrayView D T.Val} (hw : rt.width = .w64)
    (hty : m.types self = some (.lvArray D T))
    (hrun : rt.run (.copyFromNdarray self D T view) m = (.ok h, m')) :
    Served rt (.copyFromNdarray self D T view) m h m' := by
  obtain ⟨w, hx, rfl⟩ := Machine.onVariable_ok hrun
  obtain ⟨hu, -⟩ := ht self _ hty
  have hapi' := hapi
  rw [hw] at hapi'
  obtain ⟨-, hr⟩ | ⟨s₁, hc, ⟨-, e, hr⟩ | ⟨hshape, -, hr⟩⟩ :=
    LVArrayHandle.copyFromNdarray_cases hapi' (rt.nd D T) view hu
  · cases hr.symm.trans hx
  · cases hr.symm.trans hx
  · obtain ⟨rfl, rfl⟩ := Slot.mk.inj (Prod.mk.inj (hr.symm.trans hx)).2
    have hh : s₁.handle = self := hc.handle
    have hlen : ((rt.nd D T).iter view).length =
        LVArray.elementCount .w64 D (s₁.world.addr s₁.handle) s₁.world := by
      rw [hnd.iter, List.length_map, length_indices, ← hshape.elementCount view.shapeOk]
      rfl
    have hdata := LVArray.dataAsSlice_copyElements hlen
    have hdims := LVArray.dimSizes_copyElements (D := D) (s₁.world.addr s₁.handle)
      ((rt.nd D T).iter view) s₁.world
    rw [if_pos hh]
    refine ⟨UHandle.ne_null_of_live hapi' hc.usable.inv hc.usable.live, ⟨hh,
      LVArray.value rt.width D T m.world self, LVArray.value rt.width D T
        (LVArray.copyElements D T (s₁.world.addr s₁.handle) ((rt.nd D T).iter view) s₁.world)
        s₁.handle, ?_, ?_, ?_, ?_⟩, ?_⟩
    · simp [Machine.store, hty, HandleTy.value]
    · rw [← hdims] at hshape
      exact hshape
    · rw [← hw] at hdata
      exact hdata.trans (hnd.iter view)
    · rw [← hh] at hty
      simp [Machine.store, hty, HandleTy.value]
    · rw [← hh] at hty
      simp [hty]

/-- **Each operation that succeeds leaves what the store allows.** -/
theorem served_of_ok (hapi : rt.api.Lawful rt.width inv) (hnd : ∀ D T, (rt.nd D T).Lawful)
    (hm : m.Inv inv) (ht : m.Typed rt.width inv) (hr : m.Readable rt.width) (hl : op.Legal rt m)
    (hd : op.Delivers rt m) (hrun : rt.run op m = (.ok h, m')) : Served rt op m h m' := by
  have hinv := hm.inv
  cases op with
  | new value => exact served_new hapi hinv ht hrun
  | emptyString =>
      have hd : LStrHandle.Delivers rt.api (rt.newSlot m).handle [] (rt.newSlot m).world :=
        ⟨by simp, Nat.zero_le _⟩
      obtain ⟨hnull, hnone, hv, hs⟩ := served_fromData hapi hinv ht hd hrun
      exact ⟨hnull, ⟨hnone, hv⟩, fun _ => hs⟩
  | fromData data =>
      obtain ⟨hnull, hnone, hv, hs⟩ := served_fromData hapi hinv ht hd hrun
      exact ⟨hnull, ⟨hnone, hv⟩, fun _ => hs⟩
  | newEmpty D T => exact served_newEmpty hapi hinv ht hrun
  | tryClone self =>
      obtain ⟨hnull, hnone, hv, hs⟩ := served_clone hapi hinv ht hr hrun
      exact ⟨hnull, ⟨hnone, hv⟩, hs⟩
  | tryToOwned self =>
      obtain ⟨hnull, hnone, hv, hs⟩ := served_clone hapi hinv ht hr hrun
      exact ⟨hnull, ⟨hnone, hv⟩, hs⟩
  | cloneIntoPointer self other => exact served_cloneIntoPointer hapi hinv ht hr hl.1 hrun
  | set self value =>
      obtain ⟨hnull, hself, hv, hs⟩ := served_set hapi hinv hl.1 hd hrun
      exact ⟨hnull, ⟨hself, hv⟩, fun _ => hs⟩
  | setStr self value =>
      obtain ⟨hnull, hself, hv, hs⟩ := served_set hapi hinv hl.1 hd hrun
      exact ⟨hnull, ⟨hself, hv⟩, fun _ => hs⟩
  | resizeArray self D T dims => exact served_resizeArray hapi hinv ht hl.1 hrun
  | copyFromNdarray self D T view =>
      exact served_copyFromNdarray hapi ht (hnd D T) hl.2.1 hl.2.2 hrun
  | setValueUnchecked self D T index value =>
      exact served_setValueUnchecked hapi hinv ht hl.2.1 hrun
  | drop self =>
      obtain ⟨w', hdrop, -⟩ := OwnedUHandle.drop_of_live hapi hinv (hm.live self hl.2)
      rw [Runtime.run, Machine.release, hdrop] at hrun
      obtain ⟨ho, rfl⟩ := Prod.mk.inj hrun
      obtain rfl := Outcome.ok.inj ho
      refine ⟨UHandle.ne_null_of_live hapi hinv (hm.live self hl.2), ⟨rfl, ?_⟩, ?_⟩
      · simp [Machine.store]
      · simp

end Served

/-! ## every other handle -/

namespace Effect

variable {rt : Runtime τ} {op : Op} {m : Machine τ} {r : Outcome LVInteropError UHandle × Machine τ}

/-- Only the handle a step returns may change its type. -/
theorem types_eq (he : Effect rt inv op m r) {k : UHandle} (hk : r.1 ≠ .ok k) :
    r.2.types k = m.types k := by
  cases he with
  | same | confined | lost => rfl
  | filled | made | dropped =>
      refine Function.update_of_ne ?_ _ _
      rintro rfl
      exact hk rfl

/-- Only the block of the handle a step returns may change. -/
theorem kept_of_ne (he : Effect rt inv op m r) {k : UHandle} (hl : m.world.Live k)
    (hk : r.1 ≠ .ok k) : m.world.Kept r.2.world k := by
  have hne : ∀ h, r.1 = .ok h → k ≠ h := by
    rintro h ho rfl
    exact hk ho
  cases he with
  | same _ _ _ hs => exact hs k
  | confined _ _ _ _ hcon _ => exact hcon.others k (hne _ rfl)
  | filled _ _ _ _ _ ho _ => exact ho k (hne _ rfl)
  | made _ _ _ _ ho _ => exact ho k (hne _ rfl)
  | lost _ _ hfresh _ ho =>
      refine ho k ?_
      rintro rfl
      exact hl hfresh
  | dropped _ _ _ _ ho => exact ho k (hne _ rfl)

/-- Only the value behind the handle a step returns may change, and handles
that can be read stay so. -/
theorem store_eq (he : Effect rt inv op m r) (ht : m.Typed rt.width inv) (hr : m.Readable rt.width)
    {k : UHandle} (hk : r.1 ≠ .ok k) : r.2.store rt.width k = m.store rt.width k ∧
      ∀ ty, r.2.types k = some ty → ty.Readable rt.width r.2.world k := by
  have htypes := he.types_eq hk
  rw [Machine.store, Machine.store, htypes]
  cases hty : m.types k with
  | none => exact ⟨rfl, nofun⟩
  | some ty =>
      have hb := (he.kept_of_ne (ht k ty hty).1.live hk).block
      have hread := hr k ty hty
      refine ⟨congrArg some (hread.value_eq hb), fun t ht => ?_⟩
      obtain rfl := Option.some.inj ht
      exact hread.of_block hb

end Effect

/-! ## whole runs -/

section Run

variable {rt : Runtime τ} {op : Op} {m : Machine τ}

/-- One event on the store: an operation that returns `h` leaves behind it what
it may, and an operation that fails leaves everything as it was. -/
def Op.Step (rt : Runtime τ) (event : Op × Outcome LVInteropError UHandle)
    (σ σ' : Store UHandle (Value rt.width)) : Prop :=
  match event.2 with
  | .ok h => h ≠ .null ∧ ∃ v, event.1.Yields rt σ h v ∧ σ' = Function.update σ h v
  | .err _ | .panic => σ' = σ

/-- The events of a run. -/
def Runtime.trace (rt : Runtime τ) : List Op → Machine τ → List (Op × Outcome LVInteropError UHandle)
  | [], _ => []
  | op :: ops, m => (op, (rt.run op m).1) :: rt.trace ops (rt.step op m)

/-- The state after a run. -/
def Runtime.final (rt : Runtime τ) : List Op → Machine τ → Machine τ
  | [], m => m
  | op :: ops, m => rt.final ops (rt.step op m)

/-- A state in which everything a program holds can be used and read. -/
structure Machine.Sound (width : PtrWidth) (inv : World τ → Prop) (m : Machine τ) : Prop where
  owners : m.Inv inv
  typed : m.Typed width inv
  readable : m.Readable width

/-- What a step has to meet for the store to describe it. -/
structure Op.Regular (rt : Runtime τ) (op : Op) (m : Machine τ) : Prop where
  legal : op.Legal rt m
  initialises : op.Initialises rt m
  delivers : op.Delivers rt m

/-- One step of the machine is one event on the store. -/
theorem step_refines (hapi : rt.api.Lawful rt.width inv) (hnd : ∀ D T, (rt.nd D T).Lawful)
    (hm : m.Sound rt.width inv) (hop : op.Regular rt m) :
    (rt.step op m).Sound rt.width inv ∧
      Op.Step rt (op, (rt.run op m).1) (m.store rt.width) ((rt.step op m).store rt.width) := by
  have he := run_effect hapi hm.owners (hop.legal.safe hm.typed)
  have hinv' := he.inv_step hm.owners
  have htyped' := he.typed_step hm.typed hop.legal.1 hop.initialises
  have hframe := fun k => he.store_eq hm.typed hm.readable (k := k)
  rcases hrun : rt.run op m with ⟨o, m'⟩
  have hstep : rt.step op m = m' := congrArg Prod.snd hrun
  rw [hrun] at hinv' htyped' hframe
  rw [hstep]
  -- an operation that does not return is not seen
  have hfail : (∀ h, o ≠ .ok h) → m'.Sound rt.width inv ∧ m'.store rt.width = m.store rt.width :=
    fun ho => ⟨⟨hinv', htyped', fun k ty hty => (hframe k (ho k)).2 ty hty⟩,
      funext fun k => (hframe k (ho k)).1⟩
  cases o with
  | err e => exact hfail nofun
  | panic => exact hfail nofun
  | ok h =>
      have hs := served_of_ok hapi hnd hm.owners hm.typed hm.readable hop.legal hop.delivers hrun
      have hother : ∀ k, k ≠ h → Outcome.ok h ≠ (.ok k : Outcome LVInteropError UHandle) :=
        fun k hk ho => hk (Outcome.ok.inj ho).symm
      refine ⟨⟨hinv', htyped', fun k ty hty => ?_⟩, hs.ne_null, _, hs.yields, ?_⟩
      · by_cases hk : k = h
        · subst hk
          exact ⟨(htyped' k ty hty).2, fun hlstr => hs.stored (hlstr ▸ hty)⟩
        · exact (hframe k (hother k hk)).2 ty hty
      · funext k
        by_cases hk : k = h
        · subst hk
          rw [Function.update_self]
        · rw [Function.update_of_ne hk, (hframe k (hother k hk)).1]

/-- Regular steps, one after the other. -/
theorem runs_of_regular (hapi : rt.api.Lawful rt.width inv) (hnd : ∀ D T, (rt.nd D T).Lawful)
    (ops : List Op) (hm : m.Sound rt.width inv) (hops : Along rt.step (Op.Regular rt) ops m) :
    (rt.final ops m).Sound rt.width inv ∧
      Runs (Op.Step rt) (m.store rt.width) (rt.trace ops m) ((rt.final ops m).store rt.width) := by
  induction ops generalizing m with
  | nil => exact ⟨hm, .nil _⟩
  | cons op ops ih =>
      obtain ⟨hm', hstep⟩ := step_refines hapi hnd hm hops.1
      obtain ⟨hsound, hruns⟩ := ih hm' hops.2
      exact ⟨hsound, .cons hstep hruns⟩

/-- **The machine refines the store**: in every run the values behind the
handles a program holds are those of a run of the store by the same events, and
at its end every handle can be used and read at its type. -/
theorem run_refines (hapi : rt.api.Lawful rt.width inv) (hnd : ∀ D T, (rt.nd D T).Lawful)
    (ops : List Op) (hm : m.Sound rt.width inv) (hops : Along rt.step (Op.Regular rt) ops m) :
    Runs (Op.Step rt) (m.store rt.width) (rt.trace ops m) ((rt.final ops m).store rt.width) ∧
      (rt.final ops m).Sound rt.width inv := by
  obtain ⟨hsound, hruns⟩ := runs_of_regular hapi hnd ops hm hops
  exact ⟨hruns, hsound⟩

end Run

/-- A program that has not done anything yet; LabVIEW keeps `word` behind every
master pointer. -/
def Bump.machineWith (word : Nat) : Machine Bump := ⟨start word [], [], fun _ => none⟩

theorem Bump.machineWith_sound (word : Nat) (width : PtrWidth) :
    (machineWith word).Sound width Inv :=
  ⟨⟨inv_start word [], nofun, List.nodup_nil⟩, nofun, nofun⟩

theorem Bump.nd_lawful (width : PtrWidth) (D : Nat) (T : NumericArrayResizable) :
    ((runtime width).nd D T).Lawful := Ndarray.contiguous_lawful D _

/-- A string is made, cloned and changed, and a value is made beside it. -/
theorem run_refines_bump : Runs (Op.Step (Bump.runtime .w64)) ((Bump.machineWith 2).store .w64)
    ((Bump.runtime .w64).trace [.fromData [7], .tryClone ⟨1⟩, .set ⟨1⟩ [8, 9], .new [1, 2, 3],
      .drop ⟨1⟩] (Bump.machineWith 2))
    (((Bump.runtime .w64).final [.fromData [7], .tryClone ⟨1⟩, .set ⟨1⟩ [8, 9], .new [1, 2, 3],
      .drop ⟨1⟩] (Bump.machineWith 2)).store .w64) ∧
    ((Bump.runtime .w64).final [.fromData [7], .tryClone ⟨1⟩, .set ⟨1⟩ [8, 9], .new [1, 2, 3],
      .drop ⟨1⟩] (Bump.machineWith 2)).Sound .w64 Bump.Inv := by
  refine run_refines (Bump.lawful .w64) (Bump.nd_lawful .w64) _ (Bump.machineWith_sound 2 .w64)
    ⟨⟨⟨trivial, trivial⟩, trivial, by decide, by decide⟩, ⟨⟨trivial, trivial⟩, trivial, trivial⟩,
      ⟨⟨?_, trivial⟩, trivial, by decide, by decide⟩, ⟨⟨trivial, trivial⟩, trivial, trivial⟩,
      ⟨⟨trivial, ?_⟩, trivial, trivial⟩, trivial⟩
  · exact fun t ht => (Option.some.inj ht).symm
  · exact .tail _ (.tail _ (.head _))

end LvInterop
