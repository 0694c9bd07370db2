import LvInterop.Clients
import LvInterop.Lib.Program

/-!
# LvInterop.Bodies

Function bodies over handles, and rules for their calls.

A body makes owned values, works on them, and passes handles to its caller.
`Within` is what such a body keeps: what it owns is what it has made, and
beside that only what it gave its caller has changed.  Each kind of call has a
rule for it (`meets_make`, `meets_use`, `meets_give`), and a scope takes what it
made out again (`meets_owning`).  At the end of a body nothing is left of it.
-/

namespace LvInterop

open Lib

variable {τ : Type} {inv : World τ → Prop} {rt : Runtime τ}

/-- A function body over handles. -/
abbrev Client (α : Type) : Type := Body Op (Outcome LVInteropError UHandle) LVInteropError α

/-! ## steps of a body -/

/-- What no caller can see to: an array comes with its header, a string gets
all its bytes, and what a constructor asks for is granted once `DSNewHandle` has
given it its handle.  `DSNewHandle` itself, and every method, may be refused. -/
structure Op.Undisturbed (rt : Runtime τ) (op : Op) (m : Machine τ) : Prop where
  initialises : op.Initialises rt m
  delivers : op.Delivers rt m
  completes : op.Completes rt m

/-- An operation that is left undisturbed changes only what it returns. -/
theorem Effect.kept_of_completes {m : Machine τ} {op : Op}
    {r : Outcome LVInteropError UHandle × Machine τ} (he : Effect rt inv op m r)
    (hc : op.Completes rt m) {k : UHandle} (hk : r.1 ≠ .ok k) : m.world.Kept r.2.world k := by
  have hne : ∀ h, r.1 = .ok h → k ≠ h := by
    rintro h ho rfl
    exact hk ho
  cases he with
  | same _ _ _ hs => exact hs k
  | confined _ _ _ _ hcon _ => exact hcon.others k (hne _ rfl)
  | filled _ _ _ _ _ ho _ => exact ho k (hne _ rfl)
  | made _ _ _ _ ho _ => exact ho k (hne _ rfl)
  | lost hnc => exact absurd hc hnc
  | dropped _ _ _ _ ho => exact ho k (hne _ rfl)

/-- A constructor adds what it returns to what is owned. -/
theorem Runtime.owned_of_create {op : Op} (ht : op.target = none) (m : Machine τ) :
    (rt.step op m).owned = match (rt.run op m).1 with
      | .ok h => h :: m.owned
      | .err _ | .panic => m.owned := by
  have hcreate : ∀ ty (x : Exec (World τ) LVInteropError UHandle), (m.create ty x).2.owned =
      match (m.create ty x).1 with
      | .ok h => h :: m.owned
      | .err _ | .panic => m.owned := by
    intro ty x
    rcases hx : x m.world with ⟨o, w⟩
    cases o <;> simp [Machine.create, hx]
  cases op with
  | new | emptyString | fromData | newEmpty | tryClone | tryToOwned => exact hcreate _ _
  | drop | cloneIntoPointer | set | setStr | resizeArray | copyFromNdarray | setValueUnchecked =>
      cases ht

/-- A method owns nothing more. -/
theorem Runtime.owned_of_method {op : Op} {h : UHandle} (ht : op.target = some h)
    (hop : op ≠ .drop h) (m : Machine τ) : (rt.step op m).owned = m.owned := by
  cases op with
  | new | emptyString | fromData | newEmpty | tryClone | tryToOwned => cases ht
  | drop k => exact absurd (congrArg Op.drop (Option.some.inj ht)) hop
  | cloneIntoPointer | set | setStr | resizeArray | copyFromNdarray | setValueUnchecked => rfl

/-- Between `m₀` and `m` the handles `mine` were made and are still owned, and
beside them nothing but `shared` has changed. -/
structure Within (rt : Runtime τ) (inv : World τ → Prop) (m₀ : Machine τ)
    (mine shared : List UHandle) (m : Machine τ) : Prop where
  sound : m.Sound rt.width inv
  owned : m.owned = mine ++ m₀.owned
  fresh : ∀ k ∈ mine, m₀.world.live k = none ∧ m₀.types k = none
  held : ∀ k ∈ mine, m.types k ≠ none
  apart : ∀ k ∈ shared, m.types k ≠ none ∧ k ∉ mine
  frame : ∀ k, k ∉ mine → k ∉ shared → m₀.world.Kept m.world k ∧ m.types k = m₀.types k

/-- A step of a body. -/
structure Stepped (rt : Runtime τ) (inv : World τ → Prop) (op : Op) (m : Machine τ) : Prop where
  sound : (rt.step op m).Sound rt.width inv
  event : Op.Step rt (op, (rt.run op m).1) (m.store rt.width) ((rt.step op m).store rt.width)
  effect : Effect rt inv op m (rt.run op m)
  frame : ∀ k, (rt.run op m).1 ≠ .ok k →
    m.world.Kept (rt.step op m).world k ∧ (rt.step op m).types k = m.types k

theorem stepped (hapi : rt.api.Lawful rt.width inv) (hnd : ∀ D T, (rt.nd D T).Lawful)
    {op : Op} {m : Machine τ} (hm : m.Sound rt.width inv) (hl : op.Legal rt m)
    (hu : op.Undisturbed rt m) : Stepped rt inv op m := by
  obtain ⟨hsound, hstep⟩ := step_refines hapi hnd hm ⟨hl, hu.initialises, hu.delivers⟩
  have he := run_effect hapi hm.owners (hl.safe hm.typed)
  exact ⟨hsound, hstep, he, fun k hk => ⟨he.kept_of_completes hu.completes hk, he.types_eq hk⟩⟩

/-- What a step does not return it does not change. -/
theorem Stepped.frame_of_ne {op : Op} {m : Machine τ} (hs : Stepped rt inv op m) {h k : UHandle}
    (hr : (rt.run op m).1 = .ok h) (hk : k ≠ h) :
    m.world.Kept (rt.step op m).world k ∧ (rt.step op m).types k = m.types k :=
  hs.frame k fun hok => hk (Outcome.ok.inj (hr.symm.trans hok)).symm

namespace Within

variable {m₀ m : Machine τ} {mine shared : List UHandle} {op : Op}

theorem refl (hm : m.Sound rt.width inv) : Within rt inv m [] [] m :=
  ⟨hm, rfl, nofun, nofun, nofun, fun _ _ _ => ⟨.refl _ _, rfl⟩⟩

/-- A step that returns nothing. -/
theorem fail (hw : Within rt inv m₀ mine shared m) (hs : Stepped rt inv op m)
    (hop : ∀ h, op ≠ .drop h) (hr : ∀ k, (rt.run op m).1 ≠ .ok k) :
    Within rt inv m₀ mine shared (rt.step op m) := by
  have hframe := fun k => hs.frame k (hr k)
  refine ⟨hs.sound, ?_, hw.fresh, fun k hk => ?_, fun k hk => ?_, fun k hk hk' => ?_⟩
  · rw [← hw.owned]
    cases ht : op.target with
    | none =>
        rw [Runtime.owned_of_create ht]
        split
        · next h hok => exact absurd hok (hr h)
        · rfl
        · rfl
    | some h => exact Runtime.owned_of_method ht (hop h) m
  · rw [(hframe k).2]
    exact hw.held k hk
  · rw [(hframe k).2]
    exact hw.apart k hk
  · obtain ⟨hkept, hty⟩ := hw.frame k hk hk'
    exact ⟨hkept.trans (hframe k).1, (hframe k).2.trans hty⟩

/-- What a constructor returns is new. -/
theorem fresh_of_create (hw : Within rt inv m₀ mine shared m) (hs : Stepped rt inv op m)
    (ht : op.target = none) {h : UHandle} (hr : (rt.run op m).1 = .ok h) :
    m.world.live h = none ∧ m.types h = none ∧ h ∉ mine ∧ h ∉ shared := by
  have howned := @Runtime.owned_of_create τ rt op ht m
  have he := hs.effect
  have hev := hs.event
  rw [hr] at howned
  rw [Op.Step, hr] at hev
  obtain ⟨-, v, hy, -⟩ := hev
  have hty : m.types h = none := by
    by_contra hne
    obtain hc | ⟨-, hnone⟩ := hy.target_or
    · cases ht.symm.trans hc
    · exact (Machine.store_ne_none rt.width).mpr hne hnone
  refine ⟨?_, hty, fun hmem => hw.held h hmem hty, fun hmem => (hw.apart h hmem).1 hty⟩
  rw [Runtime.step] at howned
  generalize hrun : rt.run op m = r at *
  cases he with
  | same | lost => simp at howned
  | confined _ _ hc | filled _ _ hc => cases ht.symm.trans hc
  | made _ _ hfresh =>
      obtain rfl := Outcome.ok.inj hr
      exact hfresh
  | dropped hop =>
      subst hop
      cases ht

/-- A constructor that returns. -/
theorem make (hw : Within rt inv m₀ mine shared m) (hs : Stepped rt inv op m)
    (ht : op.target = none) {h : UHandle} (hr : (rt.run op m).1 = .ok h)
    (hty : (rt.step op m).types h ≠ none) :
    Within rt inv m₀ (h :: mine) shared (rt.step op m) := by
  obtain ⟨hlive, htypes, hmine, hshared⟩ := hw.fresh_of_create hs ht hr
  have hframe := fun k => hs.frame_of_ne (k := k) hr
  obtain ⟨hkept₀, hty₀⟩ := hw.frame h hmine hshared
  refine ⟨hs.sound, ?_, fun k hk => ?_, fun k hk => ?_, fun k hk => ?_, fun k hk hk' => ?_⟩
  · rw [Runtime.owned_of_create ht, hr, hw.owned]
    rfl
  · obtain rfl | hk := List.mem_cons.mp hk
    · exact ⟨by rw [← hkept₀.live, hlive], by rw [← hty₀, htypes]⟩
    · exact hw.fresh k hk
  · obtain rfl | hk := List.mem_cons.mp hk
    · exact hty
    · have hne : k ≠ h := fun hc => hmine (hc ▸ hk)
      rw [(hframe k hne).2]
      exact hw.held k hk
  · have hne : k ≠ h := fun hc => hshared (hc ▸ hk)
    rw [(hframe k hne).2]
    exact ⟨(hw.apart k hk).1, by simp [hne, (hw.apart k hk).2]⟩
  · obtain ⟨hne, hk⟩ := List.ne_and_not_mem_of_not_mem_cons hk
    obtain ⟨hkept, hty⟩ := hw.frame k hk hk'
    exact ⟨hkept.trans (hframe k hne).1, (hframe k hne).2.trans hty⟩

/-- A method that returns a handle of the body. -/
theorem use (hw : Within rt inv m₀ mine shared m) (hs : Stepped rt inv op m) {t h : UHandle}
    (ht : op.target = some t) (hop : op ≠ .drop t) (hr : (rt.run op m).1 = .ok h)
    (hty : (rt.step op m).types h ≠ none) (hmem : h ∈ mine) :
    Within rt inv m₀ mine shared (rt.step op m) := by
  have hframe := fun k => hs.frame_of_ne (k := k) hr
  refine ⟨hs.sound, ?_, hw.fresh, fun k hk => ?_, fun k hk => ?_, fun k hk hk' => ?_⟩
  · rw [Runtime.owned_of_method ht hop, hw.owned]
  · by_cases hkh : k = h
    · rw [hkh]
      exact hty
    · rw [(hframe k hkh).2]
      exact hw.held k hk
  · have hne : k ≠ h := fun hc => (hw.apart k hk).2 (hc ▸ hmem)
    rw [(hframe k hne).2]
    exact hw.apart k hk
  · have hne : k ≠ h := fun hc => hk (hc ▸ hmem)
    obtain ⟨hkept, hty⟩ := hw.frame k hk hk'
    exact ⟨hkept.trans (hframe k hne).1, (hframe k hne).2.trans hty⟩

/-- A method that returns a handle of the caller. -/
theorem give (hw : Within rt inv m₀ mine shared m) (hs : Stepped rt inv op m) {t h : UHandle}
    (ht : op.target = some t) (hop : op ≠ .drop t) (hr : (rt.run op m).1 = .ok h)
    (hty : (rt.step op m).types h ≠ none) (hmem : h ∉ mine) :
    Within rt inv m₀ mine (h :: shared) (rt.step op m) := by
  have hframe := fun k => hs.frame_of_ne (k := k) hr
  refine ⟨hs.sound, ?_, hw.fresh, fun k hk => ?_, fun k hk => ?_, fun k hk hk' => ?_⟩
  · rw [Runtime.owned_of_method ht hop, hw.owned]
  · have hne : k ≠ h := fun hc => hmem (hc ▸ hk)
    rw [(hframe k hne).2]
    exact hw.held k hk
  · by_cases hkh : k = h
    · rw [hkh]
      exact ⟨hty, hmem⟩
    · have hk' := (List.mem_cons.mp hk).resolve_left hkh
      rw [(hframe k hkh).2]
      exact hw.apart k hk'
  · obtain ⟨hne, hk'⟩ := List.ne_and_not_mem_of_not_mem_cons hk'
    obtain ⟨hkept, hty⟩ := hw.frame k hk hk'
    exact ⟨hkept.trans (hframe k hne).1, (hframe k hne).2.trans hty⟩

/-- A handle of the caller that is given back again. -/
theorem absorb {h : UHandle} (hw : Within rt inv m₀ mine (h :: shared) m) (hmem : h ∈ shared) :
    Within rt inv m₀ mine shared m := by
  refine ⟨hw.sound, hw.owned, hw.fresh, hw.held, fun k hk => hw.apart k (.tail _ hk),
    fun k hk hk' => hw.frame k hk ?_⟩
  rintro (_ | ⟨_, hk⟩)
  · exact hk' hmem
  · exact hk' hk

/-- The last handle made is dropped. -/
theorem drop (hapi : rt.api.Lawful rt.width inv) (hnd : ∀ D T, (rt.nd D T).Lawful) {h : UHandle}
    (hw : Within rt inv m₀ (h :: mine) shared m) :
    Within rt inv m₀ mine shared (rt.step (.drop h) m) ∧
      (rt.step (.drop h) m).store rt.width = Function.update (m.store rt.width) h none := by
  have hmem : h ∈ m.owned := by simp [hw.owned]
  have hnodup := hw.sound.owners.nodup
  rw [hw.owned, List.cons_append, List.nodup_cons] at hnodup
  have hrest : ∀ k ∈ mine, k ≠ h := by
    rintro k hk rfl
    exact hnodup.1 (List.mem_append_left _ hk)
  obtain ⟨w', hrun, -, hgone, -⟩ :=
    OwnedUHandle.drop_of_live hapi hw.sound.owners.inv (hw.sound.owners.live h hmem)
  have hr : rt.run (.drop h) m = (.ok h, ⟨w', m.owned.erase h, Function.update m.types h none⟩) := by
    simp [Runtime.run, Machine.release, hrun, Outcome.map]
  have hs : Stepped rt inv (.drop h) m :=
    stepped hapi hnd hw.sound ⟨trivial, hmem⟩ ⟨trivial, trivial, .inr trivial⟩
  have hframe := fun k => hs.frame_of_ne (k := k) (congrArg Prod.fst hr)
  have hev := hs.event
  rw [Op.Step, hr] at hev
  obtain ⟨-, v, ⟨-, rfl⟩, hstore⟩ := hev
  refine ⟨⟨hs.sound, ?_, fun k hk => hw.fresh k (.tail _ hk), fun k hk => ?_, fun k hk => ?_,
    fun k hk hk' => ?_⟩, hstore⟩
  · rw [Runtime.step, hr, hw.owned]
    simp
  · rw [(hframe k (hrest k hk)).2]
    exact hw.held k (.tail _ hk)
  · obtain ⟨hty, hk'⟩ := hw.apart k hk
    obtain ⟨hne, hk'⟩ := List.ne_and_not_mem_of_not_mem_cons hk'
    exact ⟨(hframe k hne).2 ▸ hty, hk'⟩
  · by_cases hkh : k = h
    · -- it did not exist before, and does not any more
      subst hkh
      obtain ⟨hlive₀, hty₀⟩ := hw.fresh k (.head _)
      rw [Runtime.step, hr]
      refine ⟨⟨hgone.trans hlive₀.symm, fun n hn => ?_, fun n hn => ?_⟩, by simp [hty₀]⟩
      · cases hlive₀.symm.trans hn
      · cases hlive₀.symm.trans hn
    · obtain ⟨hkept, hty⟩ := hw.frame k (by simp [hkh, hk]) hk'
      exact ⟨hkept.trans (hframe k hkh).1, (hframe k hkh).2.trans hty⟩

end Within

/-! ## rules for calls -/

/-- Null is not held at a type. -/
theorem Machine.Sound.types_null (hapi : rt.api.Lawful rt.width inv) {m : Machine τ}
    (hm : m.Sound rt.width inv) : m.types .null = none := by
  by_contra hne
  obtain ⟨t, hty⟩ := Option.ne_none_iff_exists'.mp hne
  exact UHandle.ne_null_of_live hapi hm.owners.inv (hm.typed _ t hty).1.live rfl

section Rules

variable {m₀ m : Machine τ} {mine shared : List UHandle} {op : Op}
variable {ok : UHandle → Machine τ → Prop} {fail : Machine τ → Prop}

open Program Body

/-- A call returns what the store allows, or nothing. -/
theorem meets_call (hapi : rt.api.Lawful rt.width inv) (hnd : ∀ D T, (rt.nd D T).Lawful)
    (hm : m.Sound rt.width inv) (hl : op.Legal rt m)
    (hok : ∀ h v, Stepped rt inv op m → (rt.run op m).1 = .ok h → h ≠ .null →
      op.Yields rt (m.store rt.width) h v →
      (rt.step op m).store rt.width = Function.update (m.store rt.width) h v → ok h (rt.step op m))
    (hfail : Stepped rt inv op m → (∀ k, (rt.run op m).1 ≠ .ok k) → fail (rt.step op m)) :
    Meets rt.run (Op.Undisturbed rt) (Ends ok fail) (Body.call op) m := by
  intro hu
  have hs := stepped hapi hnd hm hl hu
  have hev := hs.event
  show Ends ok fail (rt.run op m).1 (rt.step op m)
  cases hr : (rt.run op m).1 with
  | ok h =>
      rw [Op.Step, hr] at hev
      obtain ⟨hh, v, hy, hstore⟩ := hev
      exact .ok (hok h v hs hr hh hy hstore)
  | err e => exact .err (hfail hs (by simp [hr]))
  | panic => exact .panic (hfail hs (by simp [hr]))

/-- What a call returns is held, if what it mentions is. -/
theorem types_of_yields {h : UHandle} {v : Option (Value rt.width)} (hh : h ≠ .null)
    (hy : op.Yields rt (m.store rt.width) h v) (hop : op ≠ .drop h)
    (hheld : ∀ k, op.Mentions k → m.types k ≠ none)
    (hstore : (rt.step op m).store rt.width = Function.update (m.store rt.width) h v) :
    (rt.step op m).types h ≠ none := by
  rw [← Machine.store_ne_none rt.width, hstore, Function.update_self]
  exact hy.ne_none hh (fun k hk => (Machine.store_ne_none rt.width).mpr (hheld k hk)) hop

/-- **A constructor**: the body owns one handle more. -/
theorem meets_make (hapi : rt.api.Lawful rt.width inv) (hnd : ∀ D T, (rt.nd D T).Lawful)
    (hw : Within rt inv m₀ mine shared m) (hl : op.Legal rt m) (ht : op.target = none)
    (hheld : ∀ k, op.Mentions k → m.types k ≠ none)
    (hok : ∀ h m' v, Within rt inv m₀ (h :: mine) shared m' →
      op.Yields rt (m.store rt.width) h v →
      m'.store rt.width = Function.update (m.store rt.width) h v → ok h m')
    (hfail : ∀ m', Within rt inv m₀ mine shared m' → fail m') :
    Meets rt.run (Op.Undisturbed rt) (Ends ok fail) (Body.call op) m := by
  have hop : ∀ h, op ≠ .drop h := by
    rintro h rfl
    cases ht
  refine meets_call hapi hnd hw.sound hl (fun h v hs hr hh hy hstore => ?_) fun hs hr => ?_
  · have hty := types_of_yields hh hy (hop h) hheld hstore
    exact hok h _ v (hw.make hs ht hr hty) hy hstore
  · exact hfail _ (hw.fail hs hop hr)

/-- **A method on a handle the body has used before**, which stays in its
variable. -/
theorem meets_use (hapi : rt.api.Lawful rt.width inv) (hnd : ∀ D T, (rt.nd D T).Lawful)
    (hw : Within rt inv m₀ mine shared m) (hl : op.Legal rt m) {h : UHandle}
    (ht : op.target = some h) (hmem : h ∈ mine ∨ h ∈ shared) (hop : ∀ h, op ≠ .drop h)
    (hheld : ∀ k, op.Mentions k → m.types k ≠ none)
    (hok : ∀ m' v, Within rt inv m₀ mine shared m' → op.Yields rt (m.store rt.width) h v →
      m'.store rt.width = Function.update (m.store rt.width) h v → ok h m')
    (hfail : ∀ m', Within rt inv m₀ mine shared m' → fail m') :
    Meets rt.run (Op.Undisturbed rt) (Ends ok fail) (Body.call op) m := by
  have hne : h ≠ .null := by
    rintro rfl
    exact hmem.elim (hw.held _) (fun hs => (hw.apart _ hs).1) (hw.sound.types_null hapi)
  refine meets_call hapi hnd hw.sound hl (fun h' v hs hr hh hy hstore => ?_) fun hs hr => ?_
  · have hh' : h' = h := by
      obtain hc | ⟨hc | hc, -⟩ := hy.target_or
      · exact Option.some.inj (hc.symm.trans ht)
      · cases ht.symm.trans hc
      · exact absurd (Option.some.inj (ht.symm.trans hc)) hne
    subst hh'
    have hty := types_of_yields hh hy (hop h') hheld hstore
    refine hok _ v ?_ hy hstore
    obtain hmine | hshared := hmem
    · exact hw.use hs ht (hop h') hr hty hmine
    · exact (hw.give hs ht (hop h') hr hty (hw.apart _ hshared).2).absorb hshared
  · exact hfail _ (hw.fail hs hop hr)

/-- **A method on a variable of the caller**, which may be null. -/
theorem meets_give (hapi : rt.api.Lawful rt.width inv) (hnd : ∀ D T, (rt.nd D T).Lawful)
    (hw : Within rt inv m₀ mine shared m) (hl : op.Legal rt m) {t : UHandle}
    (ht : op.target = some t) (hmem : t ∉ mine) (hop : ∀ h, op ≠ .drop h)
    (hheld : ∀ k, op.Mentions k → m.types k ≠ none)
    (hok : ∀ h m' v, Within rt inv m₀ mine (h :: shared) m' →
      (h = t ∨ (t = .null ∧ m.types h = none)) → op.Yields rt (m.store rt.width) h v →
      m'.store rt.width = Function.update (m.store rt.width) h v → ok h m')
    (hfail : ∀ m', Within rt inv m₀ mine shared m' → fail m') :
    Meets rt.run (Op.Undisturbed rt) (Ends ok fail) (Body.call op) m := by
  refine meets_call hapi hnd hw.sound hl (fun h v hs hr hh hy hstore => ?_) fun hs hr => ?_
  · have htarget : h = t ∨ (t = .null ∧ m.types h = none) := by
      obtain hc | ⟨hc | hc, hnone⟩ := hy.target_or
      · exact .inl (Option.some.inj (hc.symm.trans ht))
      · cases ht.symm.trans hc
      · refine .inr ⟨Option.some.inj (ht.symm.trans hc), ?_⟩
        by_contra hne
        exact (Machine.store_ne_none rt.width).mpr hne hnone
    have hmine : h ∉ mine := by
      obtain rfl | ⟨-, hnone⟩ := htarget
      · exact hmem
      · exact fun hc => hw.held h hc hnone
    have hty := types_of_yields hh hy (hop h) hheld hstore
    exact hok h _ v (hw.give hs ht (hop t) hr hty hmine) htarget hy hstore
  · exact hfail _ (hw.fail hs hop hr)

/-- What a body ensures that owns `h` and drops it next. -/
def BeforeDrop (rt : Runtime τ) (inv : World τ → Prop) (m₀ : Machine τ) (mine : List UHandle)
    (h : UHandle) (Q : Machine τ → Prop) (m : Machine τ) : Prop :=
  ∃ shared, Within rt inv m₀ (h :: mine) shared m ∧
    ∀ m', Within rt inv m₀ mine shared m' →
      m'.store rt.width = Function.update (m.store rt.width) h none → Q m'

/-- **A scope**: the handle it owns is dropped, however it ends. -/
theorem meets_owning (hapi : rt.api.Lawful rt.width inv) (hnd : ∀ D T, (rt.nd D T).Lawful)
    (m₀ : Machine τ) (mine : List UHandle) {make : Client UHandle} {β : Type}
    {body : UHandle → Client β} {ok : β → Machine τ → Prop}
    (h : Meets rt.run (Op.Undisturbed rt) (Ends (fun h => Meets rt.run (Op.Undisturbed rt)
      (Ends (fun b => BeforeDrop rt inv m₀ mine h (ok b)) (BeforeDrop rt inv m₀ mine h fail))
        (body h)) fail) make m) :
    Meets rt.run (Op.Undisturbed rt) (Ends ok fail) (Body.scope make .drop body) m := by
  have hdrop : ∀ {h : UHandle} {Q : Machine τ → Prop} {m : Machine τ},
      BeforeDrop rt inv m₀ mine h Q m → Q (rt.step (.drop h) m) := by
    rintro h Q m ⟨shared, hw, hQ⟩
    obtain ⟨hw', hstore⟩ := hw.drop hapi hnd
    exact hQ _ hw' hstore
  refine meets_scope (Meets.imp (fun _ _ => Ends.imp (fun h m hbody => ?_) fun _ hf => hf) h)
  exact Meets.imp (fun _ _ => Ends.imp (fun b m hb _ => hdrop hb) fun m hb _ => hdrop hb) hbody

/-- A body that fails has nothing more to say than what it keeps. -/
theorem Within.beforeDrop {h : UHandle} (hw : Within rt inv m₀ (h :: mine) shared m)
    {Q : Machine τ → Prop} (hQ : ∀ m', Within rt inv m₀ mine shared m' → Q m') :
    BeforeDrop rt inv m₀ mine h Q m :=
  ⟨shared, hw, fun m' hw' _ => hQ m' hw'⟩

end Rules

/-! ## values -/

/-- The type at which a value is held. -/
def Value.ty {width : PtrWidth} : Value width → HandleTy
  | .sized _ => .sized
  | .lStr _ => .lStr
  | .lvArray D T _ => .lvArray D T

theorem Machine.types_of_store {width : PtrWidth} {m : Machine τ} {h : UHandle} {v : Value width}
    (hv : m.store width h = some v) : m.types h = some v.ty := by
  obtain ⟨ty, hty, rfl⟩ := Option.map_eq_some_iff.mp hv
  rw [hty]
  cases ty <;> rfl

theorem Machine.store_of_types {m : Machine τ} {h : UHandle} {ty : HandleTy} (width : PtrWidth)
    (hty : m.types h = some ty) : ∃ v, m.store width h = some v ∧ v.ty = ty := by
  have hv : m.store width h = some (ty.value width m.world h) := by rw [Machine.store, hty]; rfl
  exact ⟨_, hv, Option.some.inj ((Machine.types_of_store hv).symm.trans hty)⟩

/-- A handle variable of the caller that a `ty` can be cloned into. -/
def Machine.Takes (m : Machine τ) (output : UHandle) (ty : HandleTy) : Prop :=
  output = .null ∨ m.types output = some ty

/-- `k` may be found in the handle variable `output` afterwards. -/
def Machine.Fills (m : Machine τ) (output k : UHandle) : Prop :=
  k = output ∨ (output = .null ∧ m.types k = none)

section Specs

variable {m₀ m : Machine τ} {mine shared : List UHandle}
variable {ok : UHandle → Machine τ → Prop} {fail : Machine τ → Prop}

open Program Body

/-- The caller's variables are not among the handles of the body. -/
theorem Within.takes (hapi : rt.api.Lawful rt.width inv) (hw : Within rt inv m₀ mine shared m)
    {output : UHandle} {ty : HandleTy} (hout : m₀.Takes output ty) (hshared : output ∉ shared) :
    output ∉ mine ∧ m.Takes output ty := by
  obtain rfl | hty := hout
  · exact ⟨fun hmem => hw.held _ hmem (hw.sound.types_null hapi), .inl rfl⟩
  · have hmine : output ∉ mine := by
      intro hmem
      cases (hw.fresh output hmem).2.symm.trans hty
    exact ⟨hmine, .inr ((hw.frame output hmine hshared).2.trans hty)⟩

/-- A variable of the caller is not what another one was given. -/
theorem Within.ne_of_fills (hapi : rt.api.Lawful rt.width inv)
    {k out1 out2 : UHandle} {ty : HandleTy} (hw : Within rt inv m₀ mine (k :: shared) m)
    (hf : m₀.Fills out1 k) (hout : m₀.Takes out2 ty) (hne : out1 = out2 → out1 = .null) :
    out2 ≠ k := by
  have hk : k ≠ .null := by
    rintro rfl
    exact (hw.apart _ (.head _)).1 (hw.sound.types_null hapi)
  rintro rfl
  obtain rfl | ⟨-, hnone⟩ := hf
  · exact hk (hne rfl)
  · obtain hnull | hty := hout
    · exact hk hnull
    · cases hnone.symm.trans hty

/-- **`clone_into_pointer` into a variable of the caller.** -/
theorem meets_cloneInto (hapi : rt.api.Lawful rt.width inv) (hnd : ∀ D T, (rt.nd D T).Lawful)
    (hw : Within rt inv m₀ mine shared m) {h output : UHandle} {v : Value rt.width}
    (hv : m.store rt.width h = some v) (hout : m₀.Takes output v.ty) (hshared : output ∉ shared)
    (hok : ∀ k m', Within rt inv m₀ mine (k :: shared) m' →
      m₀.Fills output k → k ∉ shared →
      m'.store rt.width = Function.update (m.store rt.width) k (some v) → ok k m')
    (hfail : ∀ m', Within rt inv m₀ mine shared m' → fail m') :
    Meets rt.run (Op.Undisturbed rt) (Ends ok fail) (Body.call (.cloneIntoPointer h output)) m := by
  have hty := Machine.types_of_store hv
  obtain ⟨hmine, htakes⟩ := hw.takes hapi hout hshared
  have hwt : ∀ ty, m.types output = some ty → m.types h = some ty := by
    intro ty ht
    obtain rfl | htakes := htakes
    · cases (hw.sound.types_null hapi).symm.trans ht
    · rw [← ht, htakes, hty]
  have hheld : ∀ k, (Op.cloneIntoPointer h output).Mentions k → m.types k ≠ none := by
    rintro k (hk | ⟨hk, hne⟩)
    · obtain rfl := Option.some.inj hk
      simp [hty]
    · obtain rfl := Option.some.inj hk
      obtain rfl | htakes := htakes
      · exact absurd rfl hne
      · simp [htakes]
  refine meets_give hapi hnd hw ⟨hwt, trivial⟩ rfl hmine nofun hheld (fun k m' v' hw' hk hy hstore => ?_)
    hfail
  have hv' : v' = some v := by
    obtain ⟨rfl, rfl⟩ | ⟨-, -, rfl⟩ := hy
    · obtain rfl | htakes := htakes
      · exact absurd (hw'.sound.types_null hapi) (hw'.apart _ (.head _)).1
      · obtain ⟨x, hx, -⟩ := Machine.store_of_types rt.width htakes
        rw [hx, Option.bind_some, hv]
    · exact hv
  subst hv'
  obtain rfl | ⟨hnull, hnone⟩ := hk
  · exact hok k m' hw' (.inl rfl) hshared hstore
  · have hmine : k ∉ mine := fun hmem => hw.held k hmem hnone
    have hsh : k ∉ shared := fun hmem => (hw.apart k hmem).1 hnone
    exact hok k m' hw' (.inr ⟨hnull, (hw.frame k hmine hsh).2 ▸ hnone⟩) hsh hstore

/-- `set_str`. -/
theorem meets_setStr (hapi : rt.api.Lawful rt.width inv) (hnd : ∀ D T, (rt.nd D T).Lawful)
    (hw : Within rt inv m₀ mine shared m) {h : UHandle} {data : List UInt8} (text : String)
    (hv : m.store rt.width h = some (.lStr data)) (hmem : h ∈ mine)
    (hok : ∀ m', Within rt inv m₀ mine shared m' → m'.store rt.width =
      Function.update (m.store rt.width) h (some (.lStr (rt.LV_ENCODING.encode text))) → ok h m')
    (hfail : ∀ m', Within rt inv m₀ mine shared m' → fail m') :
    Meets rt.run (Op.Undisturbed rt) (Ends ok fail) (Body.call (.setStr h text)) m := by
  have hty : m.types h = some .lStr := Machine.types_of_store hv
  refine meets_use hapi hnd hw ⟨fun ty ht => ?_, trivial⟩ rfl (.inl hmem) nofun (fun k hk => ?_)
    (fun m' v hw' hy hstore => hok m' hw' ?_) hfail
  · exact Option.some.inj (ht.symm.trans hty)
  · obtain hk | ⟨hk, -⟩ := hk
    · cases hk
    · obtain rfl := Option.some.inj hk
      simp [hty]
  · rw [hstore, hy.2, hv, Option.map_some]

/-- `try_clone` and `try_to_owned`. -/
theorem meets_clone (hapi : rt.api.Lawful rt.width inv) (hnd : ∀ D T, (rt.nd D T).Lawful)
    (hw : Within rt inv m₀ mine shared m) {self : UHandle} {op : Op}
    (hop : op = .tryClone self ∨ op = .tryToOwned self) {v : Value rt.width}
    (hv : m.store rt.width self = some v)
    (hok : ∀ h m', Within rt inv m₀ (h :: mine) shared m' →
      m'.store rt.width = Function.update (m.store rt.width) h (some v) → ok h m')
    (hfail : ∀ m', Within rt inv m₀ mine shared m' → fail m') :
    Meets rt.run (Op.Undisturbed rt) (Ends ok fail) (Body.call op) m := by
  have hheld : ∀ k, op.Mentions k → m.types k ≠ none := by
    obtain rfl | rfl := hop
    all_goals
      rintro k (hk | ⟨hk, -⟩)
      · obtain rfl := Option.some.inj hk
        simp [Machine.types_of_store hv]
      · cases hk
  obtain rfl | rfl := hop
  all_goals
    refine meets_make hapi hnd hw ⟨trivial, trivial⟩ rfl hheld (fun h m' x hw' hy hstore => ?_) hfail
    refine hok h m' hw' ?_
    rw [hstore, hy.2, hv]

end Specs

end LvInterop
