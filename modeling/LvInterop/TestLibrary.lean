import LvInterop.Bodies
import LvInterop.NewEmpty

/-!
# LvInterop.TestLibrary

Functions that LabVIEW calls (`labview-test-library`).

Each makes owned values, works on them, and clones them into the handle
variables of its caller.  A method on an owned value leaves its handle in its
variable (`meets_use`), so the value that is dropped is the one that was made.

All results are about runs whose calls are undisturbed (`Op.Undisturbed`).  The
calls they rule out are those that leave a handle without an owner or a value
that is not the one asked for, which are the subject of `Ownership`, `NewEmpty`
and `WriteRead`.
-/

namespace LvInterop

open Lib

variable {τ : Type} {inv : World τ → Prop} {rt : Runtime τ}

/-- `b"…"`, the bytes of ASCII characters. -/
def byteString (s : String) : List UInt8 := s.toList.map fun c => UInt8.ofNat c.toNat

/-- `index as f64`, which is exact below 2^53: sign, exponent and fraction of
the number, little-endian. -/
def asF64 (index : Nat) : NumericArrayResizable.f64.Val :=
  let bits := if index = 0 then 0 else
    (1023 + index.log2) * 2 ^ 52 + (index - 2 ^ index.log2) * 2 ^ (52 - index.log2)
  ⟨(List.range 8).map fun i => UInt8.ofNat (bits / 2 ^ (8 * i)), rfl⟩

/-! ## the functions -/

namespace TestLibrary

open NumericArrayResizable

/-- `hello_world_owned`. -/
def helloWorldOwned (string : UHandle) : Client UHandle :=
  .scope (.call (.fromData (byteString "Hello World"))) .drop fun strok =>
    .call (.cloneIntoPointer strok string)

/-- `copy_cluster_data`; `string` is the field of the cluster. -/
def copyClusterData (string : UHandle) : Client UHandle :=
  .scope (.unwrap (.call (.fromData (byteString "Hello World!")))) .drop fun owned =>
    .call (.cloneIntoPointer owned string)

/-- `handle_to_owned`. -/
def handleToOwned (input output : UHandle) : Client UHandle :=
  .scope (.unwrap (.call (.tryToOwned input))) .drop fun owned_input => do
    let _ ← .unwrap (.call (.setStr owned_input "Changed!"))
    .call (.cloneIntoPointer owned_input output)

/-- `clone_handle`. -/
def cloneHandle (out1 out2 : UHandle) : Client (UHandle × UHandle) :=
  .scope (.unwrap (.call (.fromData (byteString "Original")))) .drop fun original =>
    .scope (.unwrap (.call (.tryClone original))) .drop fun changed => do
      let _ ← .unwrap (.call (.setStr changed "Changed"))
      let h1 ← .unwrap (.call (.cloneIntoPointer original out1))
      let h2 ← .unwrap (.call (.cloneIntoPointer changed out2))
      pure (h1, h2)

/-- The loop `for index in 0..n { set_value_unchecked(index, index as f64) }`. -/
def setEach (array : UHandle) (D n : Nat) : Client Unit :=
  .forEach (fun index => do
    let _ ← .call (.setValueUnchecked array D f64 index (asF64 index))
    pure ()) (List.range n)

/-- `resize_array`. -/
def resizeArray (array_handle : UHandle) : Client UHandle := do
  let array_handle ← .call (.resizeArray array_handle 2 f64 ⟨[3, 3], rfl⟩)
  setEach array_handle 2 9
  pure array_handle

/-- `empty_owned_array_initialisation`. -/
def emptyOwnedArrayInitialisation (array_handle : UHandle) : Client UHandle :=
  .scope (.call (.newEmpty 1 f64)) .drop fun array => do
    let array ← .call (.resizeArray array 1 f64 ⟨[5], rfl⟩)
    setEach array 1 5
    .call (.cloneIntoPointer array array_handle)

end TestLibrary

/-- A function put `v` into the variable `output` of its caller, which holds
`h` now, and has changed nothing else. -/
structure Gave (rt : Runtime τ) (inv : World τ → Prop) (m₀ : Machine τ) (output : UHandle)
    (v : Value rt.width) (h : UHandle) (m : Machine τ) : Prop where
  within : Within rt inv m₀ [] [h] m
  target : m₀.Fills output h
  value : m.store rt.width h = some v

namespace TestLibrary

section Specs

variable {m₀ m : Machine τ} {mine shared : List UHandle}
variable {ok : UHandle → Machine τ → Prop} {fail : Machine τ → Prop}

open Program Body NumericArrayResizable

/-- `from_data`, in a body that owns nothing yet. -/
theorem meets_fromData (hapi : rt.api.Lawful rt.width inv) (hnd : ∀ D T, (rt.nd D T).Lawful)
    (hm : m.Sound rt.width inv) (data : List UInt8)
    (hok : ∀ h m', Within rt inv m [h] [] m' → m'.store rt.width h = some (.lStr data) → ok h m')
    (hfail : ∀ m', Within rt inv m [] [] m' → fail m') :
    Meets rt.run (Op.Undisturbed rt) (Ends ok fail) (Body.call (.fromData data)) m := by
  refine meets_make hapi hnd (.refl hm) ⟨trivial, trivial⟩ rfl ?_ (fun h m' v hw hy hstore => ?_) hfail
  · rintro k (hk | ⟨hk, -⟩) <;> cases hk
  · refine hok h m' hw ?_
    rw [hstore, Function.update_self, hy.2]

/-- The last call of a body that owns one handle. -/
theorem meets_lastClone (hapi : rt.api.Lawful rt.width inv) (hnd : ∀ D T, (rt.nd D T).Lawful)
    {h output : UHandle} {v : Value rt.width} (hw : Within rt inv m₀ [h] [] m)
    (hv : m.store rt.width h = some v) (hout : m₀.Takes output v.ty) :
    Meets rt.run (Op.Undisturbed rt)
      (Ends (fun b => BeforeDrop rt inv m₀ [] h (Gave rt inv m₀ output v b))
        (BeforeDrop rt inv m₀ [] h (Within rt inv m₀ [] [])))
      (Body.call (.cloneIntoPointer h output)) m := by
  refine meets_cloneInto hapi hnd hw hv hout (by simp) (fun k m' hw' hk _ hstore' => ?_)
    fun _ hw => hw.beforeDrop fun _ => id
  refine ⟨_, hw', fun m'' hw'' hstore'' => ⟨hw'', hk, ?_⟩⟩
  have hne : k ≠ h := fun hc => (hw'.apart k (.head _)).2 (by simp [hc])
  rw [hstore'', Function.update_of_ne hne, hstore', Function.update_self]

theorem helloWorldOwned_meets (hapi : rt.api.Lawful rt.width inv) (hnd : ∀ D T, (rt.nd D T).Lawful)
    (hm : m.Sound rt.width inv) {string : UHandle} (hout : m.Takes string .lStr) :
    Meets rt.run (Op.Undisturbed rt)
      (Ends (Gave rt inv m string (.lStr (byteString "Hello World"))) (Within rt inv m [] []))
      (helloWorldOwned string) m :=
  meets_owning hapi hnd m [] (meets_fromData hapi hnd hm _
    (fun _ _ hw hv => meets_lastClone hapi hnd hw hv hout) fun _ => id)

theorem copyClusterData_meets (hapi : rt.api.Lawful rt.width inv) (hnd : ∀ D T, (rt.nd D T).Lawful)
    (hm : m.Sound rt.width inv) {string : UHandle} (hout : m.Takes string .lStr) :
    Meets rt.run (Op.Undisturbed rt)
      (Ends (Gave rt inv m string (.lStr (byteString "Hello World!"))) (Within rt inv m [] []))
      (copyClusterData string) m :=
  meets_owning hapi hnd m [] (meets_unwrap (meets_fromData hapi hnd hm _
    (fun _ _ hw hv => meets_lastClone hapi hnd hw hv hout) fun _ => id))

theorem handleToOwned_meets (hapi : rt.api.Lawful rt.width inv) (hnd : ∀ D T, (rt.nd D T).Lawful)
    (hm : m.Sound rt.width inv) {input output : UHandle} (hin : m.types input = some .lStr)
    (hout : m.Takes output .lStr) :
    Meets rt.run (Op.Undisturbed rt)
      (Ends (Gave rt inv m output (.lStr (rt.LV_ENCODING.encode "Changed!"))) (Within rt inv m [] []))
      (handleToOwned input output) m := by
  obtain ⟨x, hx, hxty⟩ := Machine.store_of_types rt.width hin
  obtain ⟨data, rfl⟩ : ∃ data, x = .lStr data := by cases x <;> simp_all [Value.ty]
  refine meets_owning hapi hnd m [] (meets_unwrap (meets_clone hapi hnd (.refl hm) (.inr rfl) hx
    (fun h m₁ hw₁ hstore₁ => ?_) fun _ => id))
  have hx₁ : m₁.store rt.width h = some (.lStr data) := by rw [hstore₁, Function.update_self]
  refine meets_bind (meets_unwrap (meets_setStr hapi hnd hw₁ _ hx₁ (.head _)
    (fun m₂ hw₂ hstore₂ => ?_) fun _ hw => hw.beforeDrop fun _ => id))
  exact meets_lastClone hapi hnd hw₂ (by rw [hstore₂, Function.update_self]) hout

/-! ## two variables -/

/-- Both variables hold what they were given; nothing else has changed. -/
structure GaveBoth (rt : Runtime τ) (inv : World τ → Prop) (m₀ : Machine τ) (out1 out2 : UHandle)
    (v1 v2 : Value rt.width) (h : UHandle × UHandle) (m : Machine τ) : Prop where
  within : Within rt inv m₀ [] [h.2, h.1] m
  target1 : m₀.Fills out1 h.1
  target2 : m₀.Fills out2 h.2
  ne : h.2 ≠ h.1
  value1 : m.store rt.width h.1 = some v1
  value2 : m.store rt.width h.2 = some v2

/-- The first variable may have been written, nothing else. -/
def AtMostFirst (rt : Runtime τ) (inv : World τ → Prop) (m₀ : Machine τ) (out1 : UHandle)
    (m : Machine τ) : Prop :=
  ∃ shared, (∀ k ∈ shared, m₀.Fills out1 k) ∧ Within rt inv m₀ [] shared m

theorem cloneHandle_meets (hapi : rt.api.Lawful rt.width inv) (hnd : ∀ D T, (rt.nd D T).Lawful)
    (hm : m.Sound rt.width inv) {out1 out2 : UHandle} (hout1 : m.Takes out1 .lStr)
    (hout2 : m.Takes out2 .lStr) (hne : out1 = out2 → out1 = .null) :
    Meets rt.run (Op.Undisturbed rt)
      (Ends (GaveBoth rt inv m out1 out2 (.lStr (byteString "Original"))
        (.lStr (rt.LV_ENCODING.encode "Changed"))) (AtMostFirst rt inv m out1))
      (cloneHandle out1 out2) m := by
  refine meets_owning hapi hnd m [] (meets_unwrap (meets_fromData hapi hnd hm _
    (fun original m₁ hw₁ hv₁ => ?_) fun m' hw' => ⟨[], nofun, hw'⟩))
  refine meets_owning hapi hnd m [original] (meets_unwrap (meets_clone hapi hnd hw₁ (.inl rfl) hv₁
    (fun changed m₂ hw₂ hstore₂ => ?_) fun _ hw => hw.beforeDrop fun _ hw => ⟨[], nofun, hw⟩))
  have hv₂ : m₂.store rt.width changed = some (.lStr (byteString "Original")) := by
    rw [hstore₂, Function.update_self]
  have hdiff : original ≠ changed := by
    have hnodup := hw₂.sound.owners.nodup
    rw [hw₂.owned] at hnodup
    rintro rfl
    simp at hnodup
  refine meets_bind (meets_unwrap (meets_setStr hapi hnd hw₂ _ hv₂ (.head _)
    (fun m₃ hw₃ hstore₃ => ?_) fun _ hw => hw.beforeDrop fun _ hw => hw.beforeDrop fun _ hw => ⟨[], nofun, hw⟩))
  have hv₃ : m₃.store rt.width original = some (.lStr (byteString "Original")) := by
    rw [hstore₃, Function.update_of_ne hdiff, hstore₂, Function.update_of_ne hdiff, hv₁]
  refine meets_bind (meets_unwrap (meets_cloneInto hapi hnd hw₃ hv₃ hout1 (by simp)
    (fun h1 m₄ hw₄ hf₄ _ hstore₄ => ?_)
    fun _ hw => hw.beforeDrop fun _ hw => hw.beforeDrop fun _ hw => ⟨[], nofun, hw⟩))
  have h1ne : h1 ≠ changed ∧ h1 ≠ original := by
    have := (hw₄.apart h1 (.head _)).2
    simp at this
    exact this
  have hv₄ : m₄.store rt.width changed = some (.lStr (rt.LV_ENCODING.encode "Changed")) := by
    rw [hstore₄, Function.update_of_ne h1ne.1.symm, hstore₃, Function.update_self]
  have hout2' : out2 ∉ [h1] := by
    simpa using hw₄.ne_of_fills hapi hf₄ hout2 hne
  refine meets_bind (meets_unwrap (meets_cloneInto hapi hnd hw₄ hv₄ hout2 hout2'
    (fun h2 m₅ hw₅ hf₅ hsh₅ hstore₅ => ?_)
    fun _ hw => hw.beforeDrop fun _ hw => hw.beforeDrop fun _ hw => ⟨[h1], by simpa using hf₄, hw⟩))
  have h2ne : h2 ≠ changed ∧ h2 ≠ original := by
    have := (hw₅.apart h2 (.head _)).2
    simp at this
    exact this
  have h21 : h2 ≠ h1 := by simpa using hsh₅
  refine .ok ⟨_, hw₅, fun m₆ hw₆ hstore₆ => ⟨_, hw₆, fun m₇ hw₇ hstore₇ =>
    ⟨hw₇, hf₄, hf₅, h21, ?_, ?_⟩⟩⟩
  · rw [hstore₇, Function.update_of_ne h1ne.2, hstore₆, Function.update_of_ne h1ne.1, hstore₅,
      Function.update_of_ne h21.symm, hstore₄, Function.update_self]
  · rw [hstore₇, Function.update_of_ne h2ne.2, hstore₆, Function.update_of_ne h2ne.1, hstore₅,
      Function.update_self]

/-! ## arrays -/

/-- The array found behind a handle. -/
theorem array_of_store {width : PtrWidth} {h : UHandle} {D : Nat} {T : NumericArrayResizable}
    {a : ArrayValue width D T} (hv : m.store width h = some (.lvArray D T a)) :
    a = LVArray.value width D T m.world h := by
  have hty := Machine.types_of_store hv
  rw [Machine.store, hty] at hv
  simpa [Value.ty, HandleTy.value, eq_comm] using hv

/-- **The loop of stores** fills an array of `n` elements. -/
theorem setEach_meets (hapi : rt.api.Lawful rt.width inv) (hnd : ∀ D T, (rt.nd D T).Lawful)
    (hw : Within rt inv m₀ mine shared m) {h : UHandle} (hmem : h ∈ mine ∨ h ∈ shared) {D n : Nat}
    {a : ArrayValue rt.width D f64} (hv : m.store rt.width h = some (.lvArray D f64 a))
    (hn : a.dims.elementCount rt.width = n) {ok : Unit → Machine τ → Prop} {fail : Machine τ → Prop}
    (hok : ∀ m' a', Within rt inv m₀ mine shared m' →
      m'.store rt.width h = some (.lvArray D f64 a') → a'.dims = a.dims →
      a'.elements = (List.range n).map asF64 → ok () m')
    (hfail : ∀ m', Within rt inv m₀ mine shared m' → fail m') :
    Meets rt.run (Op.Undisturbed rt) (Ends ok fail) (setEach h D n) m := by
  -- after `i` rounds the first `i` elements are those of the loop
  let I : Nat → Machine τ → Prop := fun i m' => Within rt inv m₀ mine shared m' ∧
    ∃ a' : ArrayValue rt.width D f64, m'.store rt.width h = some (.lvArray D f64 a') ∧
      a'.dims = a.dims ∧ ∀ j < i, a'.elements[j]? = some (asF64 j)
  have hlast : ∀ m', I (List.range n).length m' → ok () m' := by
    rintro m' ⟨hw', a', hv', hdims, helems⟩
    rw [List.length_range] at helems
    have hlen : a'.elements.length = n := by rw [a'.length_eq, hdims, hn]
    refine hok m' a' hw' hv' hdims (List.ext_getElem? fun j => ?_)
    by_cases hj : j < n
    · rw [helems j hj]
      simp [hj]
    · rw [List.getElem?_eq_none (by omega), List.getElem?_eq_none (by simpa using hj)]
  refine Meets.imp (fun _ _ => Ends.imp (fun _ => hlast) fun _ hf => hf)
    (meets_forEach I (fun i index m₁ hi hI => ?_) ⟨hw, a, hv, rfl, nofun⟩)
  obtain ⟨hw₁, a₁, hv₁, hdims₁, helems₁⟩ := hI
  have hlt : i < n := by simpa using (List.getElem?_eq_some_iff.mp hi).1
  obtain rfl : i = index := by simpa [hlt] using hi
  have hty : m₁.types h = some (.lvArray D f64) := Machine.types_of_store hv₁
  have hcount : i < LVArray.elementCount rt.width D (m₁.world.addr h) m₁.world := by
    have ha := array_of_store hv₁
    rw [← hn, ← hdims₁, ha] at hlt
    exact hlt
  refine meets_bind (meets_use hapi hnd hw₁ ⟨fun ty ht => ?_, hty, hcount⟩ rfl hmem nofun
    (fun k hk => ?_) (fun m₂ v hw₂ hy hstore₂ => ?_) hfail)
  · exact Option.some.inj (ht.symm.trans hty)
  · obtain hk | ⟨hk, -⟩ := hk
    · cases hk
    · obtain rfl := Option.some.inj hk
      simp [hty]
  obtain ⟨-, b, b', hb, hdims, helems, rfl⟩ := hy
  obtain rfl : a₁ = b := by simpa [hv₁] using hb
  refine .ok ⟨hw₂, b', by rw [hstore₂, Function.update_self], hdims.trans hdims₁, fun j hj => ?_⟩
  have hlen : i < a₁.elements.length := by
    rw [a₁.length_eq, hdims₁, hn]
    exact hlt
  rw [helems]
  obtain rfl | hne := eq_or_ne i j
  · rw [List.getElem?_set_self hlen]
  · rw [List.getElem?_set_ne hne, helems₁ j (by omega)]

/-- `resize_array` of an array the body has used before. -/
theorem meets_resize (hapi : rt.api.Lawful rt.width inv) (hnd : ∀ D T, (rt.nd D T).Lawful)
    (hw : Within rt inv m₀ mine shared m) {h : UHandle} (hmem : h ∈ mine ∨ h ∈ shared) {D : Nat}
    {T : NumericArrayResizable} (hty : m.types h = some (.lvArray D T)) (dims : LVArrayDims D)
    {ok : UHandle → Machine τ → Prop} {fail : Machine τ → Prop}
    (hok : ∀ m' a', Within rt inv m₀ mine shared m' →
      m'.store rt.width h = some (.lvArray D T a') → a'.dims = dims → ok h m')
    (hfail : ∀ m', Within rt inv m₀ mine shared m' → fail m') :
    Meets rt.run (Op.Undisturbed rt) (Ends ok fail) (Body.call (.resizeArray h D T dims)) m := by
  refine meets_use hapi hnd hw ⟨fun ty ht => ?_, trivial⟩ rfl hmem nofun (fun k hk => ?_)
    (fun m' v hw' hy hstore => ?_) hfail
  · exact Option.some.inj (ht.symm.trans hty)
  · obtain hk | ⟨hk, -⟩ := hk
    · cases hk
    · obtain rfl := Option.some.inj hk
      simp [hty]
  obtain ⟨-, hnone, -⟩ | ⟨-, b, b', -, hdims, -, rfl⟩ | ⟨rfl, -⟩ := hy
  · exact absurd hnone ((Machine.store_ne_none rt.width).mpr (by simp [hty]))
  · exact hok m' b' hw' (by rw [hstore, Function.update_self]) hdims
  · cases (hw.sound.types_null hapi).symm.trans hty

/-- The array the loop of stores leaves. -/
def counted (width : PtrWidth) (D n : Nat) (dims : LVArrayDims D) (hn : dims.elementCount width = n) :
    ArrayValue width D f64 :=
  ⟨dims, (List.range n).map asF64, by simp [hn]⟩

theorem elementCount_five (width : PtrWidth) :
    (⟨[5], rfl⟩ : LVArrayDims 1).elementCount width = 5 := by cases width <;> rfl

theorem elementCount_nine (width : PtrWidth) :
    (⟨[3, 3], rfl⟩ : LVArrayDims 2).elementCount width = 9 := by cases width <;> rfl

theorem emptyOwnedArrayInitialisation_meets (hapi : rt.api.Lawful rt.width inv)
    (hnd : ∀ D T, (rt.nd D T).Lawful) (hm : m.Sound rt.width inv) {array_handle : UHandle}
    (hout : m.Takes array_handle (.lvArray 1 f64)) :
    Meets rt.run (Op.Undisturbed rt)
      (Ends (Gave rt inv m array_handle
        (.lvArray 1 f64 (counted rt.width 1 5 ⟨[5], rfl⟩ (elementCount_five _))))
        (Within rt inv m [] []))
      (emptyOwnedArrayInitialisation array_handle) m := by
  refine meets_owning hapi hnd m [] (meets_make hapi hnd (.refl hm) ⟨trivial, trivial⟩ rfl ?_
    (fun array m₁ v hw₁ hy hstore₁ => ?_) fun _ => id)
  · rintro k (hk | ⟨hk, -⟩) <;> cases hk
  obtain ⟨-, a, -, rfl⟩ := hy
  have hty₁ : m₁.types array = some (.lvArray 1 f64) :=
    Machine.types_of_store (v := .lvArray 1 f64 a) (by rw [hstore₁, Function.update_self])
  refine meets_bind (meets_resize hapi hnd hw₁ (.inl (.head _)) hty₁ _
    (fun m₂ a₂ hw₂ hv₂ hdims₂ => ?_) fun _ hw => hw.beforeDrop fun _ => id)
  have hcount₂ : a₂.dims.elementCount rt.width = 5 := by rw [hdims₂, elementCount_five]
  refine meets_bind (setEach_meets hapi hnd hw₂ (.inl (.head _)) hv₂ hcount₂
    (fun m₃ a₃ hw₃ hv₃ hdims₃ helems₃ => ?_) fun _ hw => hw.beforeDrop fun _ => id)
  obtain rfl : a₃ = counted rt.width 1 5 ⟨[5], rfl⟩ (elementCount_five _) :=
    ArrayValue.ext (hdims₃.trans hdims₂) helems₃
  exact meets_lastClone hapi hnd hw₃ hv₃ hout

theorem resizeArray_meets (hapi : rt.api.Lawful rt.width inv) (hnd : ∀ D T, (rt.nd D T).Lawful)
    (hm : m.Sound rt.width inv) {array_handle : UHandle}
    (hty : m.types array_handle = some (.lvArray 2 f64)) :
    Meets rt.run (Op.Undisturbed rt)
      (Ends (Gave rt inv m array_handle
        (.lvArray 2 f64 (counted rt.width 2 9 ⟨[3, 3], rfl⟩ (elementCount_nine _))))
        (Within rt inv m [] [array_handle]))
      (resizeArray array_handle) m := by
  have hw : Within rt inv m [] [array_handle] m :=
    ⟨hm, rfl, nofun, nofun, by simp [hty], fun _ _ _ => ⟨.refl _ _, rfl⟩⟩
  refine meets_bind (meets_resize hapi hnd hw (.inr (.head _)) hty _
    (fun m₁ a₁ hw₁ hv₁ hdims₁ => ?_) fun _ => id)
  have hcount₁ : a₁.dims.elementCount rt.width = 9 := by rw [hdims₁, elementCount_nine]
  refine meets_bind (setEach_meets hapi hnd hw₁ (.inr (.head _)) hv₁ hcount₁
    (fun m₂ a₂ hw₂ hv₂ hdims₂ helems₂ => ?_) fun _ => id)
  obtain rfl : a₂ = counted rt.width 2 9 ⟨[3, 3], rfl⟩ (elementCount_nine _) :=
    ArrayValue.ext (hdims₂.trans hdims₁) helems₂
  exact .ok ⟨hw₂, .inl rfl, hv₂⟩

/-! ## whole functions -/

/-- **`handle_to_owned`** changes its copy and never its input: where it
returns, the output holds the new text, and wherever it stops, no copy is left
behind.  The calls are undisturbed: the new text fits the string, and
`DSCopyHandle` is not refused to `try_to_owned` once `DSNewHandle` was granted,
since that would leave a handle nobody owns.  Any other call may be refused. -/
theorem handleToOwned_delivers (hapi : rt.api.Lawful rt.width inv)
    (hnd : ∀ D T, (rt.nd D T).Lawful) (hm : m.Sound rt.width inv) {input output : UHandle}
    (hin : m.types input = some .lStr) (hout : m.Takes output .lStr)
    (hrun : Along rt.step (Op.Undisturbed rt) ((handleToOwned input output).inputs rt.run m) m) :
    Ends (Gave rt inv m output (.lStr (rt.LV_ENCODING.encode "Changed!"))) (Within rt inv m [] [])
      ((handleToOwned input output).exec rt.run m).1 ((handleToOwned input output).exec rt.run m).2 :=
  (handleToOwned_meets hapi hnd hm hin hout).end_of_along hrun

/-- **`clone_handle`**: the clone is changed and the original is not, and both
are dropped, in every order in which undisturbed calls may fail: the texts fit
their strings, and what a constructor asks for is granted once its `DSNewHandle`
is.  Two variables that are not null are not the same. -/
theorem cloneHandle_delivers (hapi : rt.api.Lawful rt.width inv)
    (hnd : ∀ D T, (rt.nd D T).Lawful) (hm : m.Sound rt.width inv) {out1 out2 : UHandle}
    (hout1 : m.Takes out1 .lStr) (hout2 : m.Takes out2 .lStr) (hne : out1 = out2 → out1 = .null)
    (hrun : Along rt.step (Op.Undisturbed rt) ((cloneHandle out1 out2).inputs rt.run m) m) :
    Ends (GaveBoth rt inv m out1 out2 (.lStr (byteString "Original"))
        (.lStr (rt.LV_ENCODING.encode "Changed"))) (AtMostFirst rt inv m out1)
      ((cloneHandle out1 out2).exec rt.run m).1 ((cloneHandle out1 out2).exec rt.run m).2 :=
  (cloneHandle_meets hapi hnd hm hout1 hout2 hne).end_of_along hrun

/-- **`empty_owned_array_initialisation`** hands out an array with the five
elements of its loop, or nothing, and keeps no array of its own, as long as
`new_empty` is undisturbed: it does not find a header at its new block, and the
resize that it asks for once `DSNewHandle` is granted is granted too.  Any other
call may be refused. -/
theorem emptyOwnedArrayInitialisation_delivers (hapi : rt.api.Lawful rt.width inv)
    (hnd : ∀ D T, (rt.nd D T).Lawful) (hm : m.Sound rt.width inv) {array_handle : UHandle}
    (hout : m.Takes array_handle (.lvArray 1 f64))
    (hrun : Along rt.step (Op.Undisturbed rt)
      ((emptyOwnedArrayInitialisation array_handle).inputs rt.run m) m) :
    Ends (Gave rt inv m array_handle
        (.lvArray 1 f64 (counted rt.width 1 5 ⟨[5], rfl⟩ (elementCount_five _))))
      (Within rt inv m [] [])
      ((emptyOwnedArrayInitialisation array_handle).exec rt.run m).1
      ((emptyOwnedArrayInitialisation array_handle).exec rt.run m).2 :=
  (emptyOwnedArrayInitialisation_meets hapi hnd hm hout).end_of_along hrun

end Specs

end TestLibrary

/-! ## runs -/

namespace Bump

/-- A program that holds the string `[7]` at the handle 1. -/
def machineWithString (word : Nat) : Machine Bump :=
  (runtime .w64).step (.fromData [7]) (machineWith word)

theorem machineWithString_sound {word : Nat} (h : 1 ≤ word) :
    (machineWithString word).Sound .w64 Inv := by
  have hop : Op.Regular (runtime .w64) (.fromData [7]) (machineWith word) :=
    ⟨⟨trivial, trivial⟩, trivial, by decide, h⟩
  exact (step_refines (lawful .w64) (nd_lawful .w64) (machineWith_sound word .w64) hop).1

/-- A program that has not done anything yet, in memory that was used before. -/
def machineUsed : Machine Bump := ⟨used [], [], fun _ => none⟩

theorem machineUsed_sound : machineUsed.Sound .w64 Inv :=
  ⟨⟨inv_used [], nofun, List.nodup_nil⟩, nofun, nofun⟩

end Bump

theorem TestLibrary.handleToOwned_delivers_bump :
    Body.Ends (Gave (Bump.runtime .w64) Bump.Inv (Bump.machineWithString 8) .null
        (.lStr ((Bump.runtime .w64).LV_ENCODING.encode "Changed!")))
      (Within (Bump.runtime .w64) Bump.Inv (Bump.machineWithString 8) [] [])
      ((handleToOwned ⟨1⟩ .null).exec (Bump.runtime .w64).run (Bump.machineWithString 8)).1
      ((handleToOwned ⟨1⟩ .null).exec (Bump.runtime .w64).run (Bump.machineWithString 8)).2 := by
  refine handleToOwned_delivers (Bump.lawful .w64) (Bump.nd_lawful .w64)
    (Bump.machineWithString_sound (by decide)) rfl (.inl rfl) ?_
  refine ⟨⟨trivial, trivial, .inr ⟨rfl, rfl⟩⟩, ?_⟩
  refine ⟨⟨trivial, ⟨by decide, by decide⟩, .inr trivial⟩, ?_⟩
  refine ⟨⟨trivial, trivial, .inr trivial⟩, ?_⟩
  exact ⟨⟨trivial, trivial, .inr trivial⟩, trivial⟩

theorem TestLibrary.cloneHandle_delivers_bump :
    Body.Ends (GaveBoth (Bump.runtime .w64) Bump.Inv (Bump.machineWith 8) .null .null
        (.lStr (byteString "Original")) (.lStr ((Bump.runtime .w64).LV_ENCODING.encode "Changed")))
      (AtMostFirst (Bump.runtime .w64) Bump.Inv (Bump.machineWith 8) .null)
      ((cloneHandle .null .null).exec (Bump.runtime .w64).run (Bump.machineWith 8)).1
      ((cloneHandle .null .null).exec (Bump.runtime .w64).run (Bump.machineWith 8)).2 := by
  refine cloneHandle_delivers (Bump.lawful .w64) (Bump.nd_lawful .w64) (Bump.machineWith_sound 8 .w64)
    (.inl rfl) (.inl rfl) (fun _ => rfl) ?_
  refine ⟨⟨trivial, ⟨by decide, by decide⟩, .inr rfl⟩, ?_⟩
  refine ⟨⟨trivial, trivial, .inr ⟨rfl, rfl⟩⟩, ?_⟩
  refine ⟨⟨trivial, ⟨by decide, by decide⟩, .inr trivial⟩, ?_⟩
  refine ⟨⟨trivial, trivial, .inr trivial⟩, ?_⟩
  refine ⟨⟨trivial, trivial, .inr trivial⟩, ?_⟩
  refine ⟨⟨trivial, trivial, .inr trivial⟩, ?_⟩
  exact ⟨⟨trivial, trivial, .inr trivial⟩, trivial⟩

/-- Memory of ones is not taken for the header of an array. -/
theorem TestLibrary.emptyOwnedArrayInitialisation_delivers_bump :
    Body.Ends (Gave (Bump.runtime .w64) Bump.Inv Bump.machineUsed .null
        (.lvArray 1 .f64 (counted .w64 1 5 ⟨[5], rfl⟩ (elementCount_five _))))
      (Within (Bump.runtime .w64) Bump.Inv Bump.machineUsed [] [])
      ((emptyOwnedArrayInitialisation .null).exec (Bump.runtime .w64).run Bump.machineUsed).1
      ((emptyOwnedArrayInitialisation .null).exec (Bump.runtime .w64).run Bump.machineUsed).2 := by
  refine emptyOwnedArrayInitialisation_delivers (Bump.lawful .w64) (Bump.nd_lawful .w64)
    Bump.machineUsed_sound (.inl rfl) ?_
  have hdiffers : ¬ LVArrayHandle.Unchanged .w64 (.newEmpty 1)
      ((Bump.runtime .w64).newSlot Bump.machineUsed) := by
    rintro ⟨-, array, href, hdims⟩
    obtain rfl := Except.ok.inj href
    exact absurd hdims (by decide)
  refine ⟨⟨hdiffers, trivial, .inr (.inr rfl)⟩, ?_⟩
  exact ⟨⟨trivial, trivial, .inr trivial⟩, ⟨trivial, trivial, .inr trivial⟩,
    ⟨trivial, trivial, .inr trivial⟩, ⟨trivial, trivial, .inr trivial⟩,
    ⟨trivial, trivial, .inr trivial⟩, ⟨trivial, trivial, .inr trivial⟩,
    ⟨trivial, trivial, .inr trivial⟩, ⟨trivial, trivial, .inr trivial⟩, trivial⟩

end LvInterop
