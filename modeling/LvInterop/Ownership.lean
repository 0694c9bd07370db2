import LvInterop.Effect

/-!
# LvInterop.Ownership

Who owns the handles.  The manager's table is split between the handles LabVIEW
made (`foreign`) and those held by `OwnedUHandle` values, one owner each, and a
handle leaves the table when its owner is dropped and at no other time.

Every operation keeps the split, with one exception (`owns_iff_completes`):
when `DSNewHandle` has succeeded and what follows fails, the constructor
returns the error with `?` and the new handle stays in the table.
-/

namespace LvInterop

open Lib

variable {τ : Type}

/-- The table holds the foreign handles and the owned ones. -/
structure NoLeak (foreign : UHandle → Prop) (m : Machine τ) : Prop where
  held : ∀ h, m.world.Live h ↔ foreign h ∨ h ∈ m.owned
  apart : ∀ h ∈ m.owned, ¬ foreign h

/-- What ownership promises of a step: nothing leaks, each handle has one
owner, and a handle is disposed of exactly by the drop of its owner. -/
structure Owns (rt : Runtime τ) (foreign : UHandle → Prop) (op : Op) (m : Machine τ) : Prop where
  noLeak : NoLeak foreign (rt.step op m)
  nodup : (rt.step op m).owned.Nodup
  disposed : ∀ h, (m.world.Live h ∧ ¬ (rt.step op m).world.Live h) ↔ op = .drop h

/-- The operations on owned values.  Strings and arrays may also be those of
LabVIEW, but a null variable has no array to resize. -/
def Op.Owning (op : Op) (m : Machine τ) : Prop :=
  match op with
  | .new _ | .emptyString | .fromData _ | .newEmpty _ _ | .tryClone _ | .tryToOwned _ | .set _ _
    | .setStr _ _ => True
  | .resizeArray self _ _ _ => self ≠ .null
  | .drop self => self ∈ m.owned
  | _ => False

variable {rt : Runtime τ} {inv : World τ → Prop} {op : Op} {m : Machine τ}
variable {foreign : UHandle → Prop}

/-- These operations are safe. -/
theorem Op.Owning.safe (rt : Runtime τ) (inv : World τ → Prop) (h : op.Owning m) :
    op.Safe rt inv m := by
  cases op with
  | copyFromNdarray => exact h.elim
  | setValueUnchecked => exact h.elim
  | drop => exact h
  | new | emptyString | fromData | newEmpty | tryClone | tryToOwned | cloneIntoPointer | set
    | setStr | resizeArray => exact trivial

/-- They do not store a new handle in a variable. -/
theorem Op.Owning.not_fills (h : op.Owning m) (hp : op.PassesVariable) :
    op.target ≠ some .null := by
  cases op with
  | resizeArray self => exact fun hc => h (Option.some.inj hc)
  | cloneIntoPointer => exact h.elim
  | copyFromNdarray => exact h.elim
  | new | emptyString | fromData | newEmpty | tryClone | tryToOwned | set | setStr
    | setValueUnchecked | drop => exact hp.elim

/-- The table after a change to a block that is live afterwards. -/
theorem World.SameBut.live_iff {w w' : World τ} {h k : UHandle} (ho : w.SameBut w' h)
    (hh : w'.Live h) : w'.Live k ↔ k = h ∨ w.Live k := by
  by_cases hk : k = h
  · simp [hk, hh]
  · simp [hk, (ho k hk).live_iff]

/-- A step that leaves table and owners as they were keeps the split. -/
theorem owns_of_live_iff {r : Outcome LVInteropError UHandle × Machine τ}
    (hnl : NoLeak foreign m) (hm : m.Inv inv) (hr : rt.run op m = r) (hop : ∀ h, op ≠ .drop h)
    (hlive : ∀ k, r.2.world.Live k ↔ m.world.Live k) (howned : r.2.owned = m.owned) :
    Owns rt foreign op m := by
  have hstep : rt.step op m = r.2 := congrArg Prod.snd hr
  refine ⟨⟨fun k => ?_, ?_⟩, ?_, fun k => ?_⟩
  · rw [hstep, hlive, howned]
    exact hnl.held k
  · rw [hstep, howned]
    exact hnl.apart
  · rw [hstep, howned]
    exact hm.nodup
  · rw [hstep, hlive]
    exact ⟨fun hc => absurd hc.1 hc.2, fun hc => absurd hc (hop k)⟩

/-- A new handle with its owner keeps the split. -/
theorem owns_of_made {h : UHandle} {w : World τ} {types : UHandle → Option HandleTy}
    (hnl : NoLeak foreign m) (hstep : rt.step op m = ⟨w, h :: m.owned, types⟩)
    (hinv : (⟨w, h :: m.owned, types⟩ : Machine τ).Inv inv) (ht : op.target = none)
    (hfresh : m.world.live h = none) (hu : (⟨h, w⟩ : Slot τ).Usable inv) (ho : m.world.SameBut w h) :
    Owns rt foreign op m := by
  refine ⟨⟨fun k => ?_, fun k hk => ?_⟩, hstep ▸ hinv.nodup, fun k => ?_⟩
  · rw [hstep, ho.live_iff hu.live, hnl.held k, List.mem_cons]
    grind
  · rw [hstep] at hk
    cases hk with
    | head => exact fun hf => (hnl.held h).mpr (.inl hf) hfresh
    | tail _ hk => exact hnl.apart k hk
  · rw [hstep, ho.live_iff hu.live]
    constructor
    · exact fun hc => absurd (.inr hc.1) hc.2
    · rintro rfl
      cases ht

/-- A handle disposed of with its owner keeps the split. -/
theorem owns_of_dropped {h : UHandle} {w : World τ} {types : UHandle → Option HandleTy}
    (hnl : NoLeak foreign m) (hm : m.Inv inv)
    (hstep : rt.step (.drop h) m = ⟨w, m.owned.erase h, types⟩)
    (hinv : (⟨w, m.owned.erase h, types⟩ : Machine τ).Inv inv) (hmem : h ∈ m.owned)
    (hgone : w.live h = none) (ho : m.world.SameBut w h) : Owns rt foreign (.drop h) m := by
  have hne : ∀ k, w.Live k ↔ k ≠ h ∧ m.world.Live k := by
    intro k
    by_cases hk : k = h
    · simp [hk, World.Live, hgone]
    · simp [hk, (ho k hk).live_iff]
  refine ⟨⟨fun k => ?_, fun k hk => ?_⟩, hstep ▸ hinv.nodup, fun k => ?_⟩
  · rw [hstep, hne, hnl.held k, hm.nodup.mem_erase_iff]
    constructor
    · grind
    · rintro (hf | hk)
      · refine ⟨?_, .inl hf⟩
        rintro rfl
        exact hnl.apart k hmem hf
      · grind
  · rw [hstep] at hk
    exact hnl.apart k (List.mem_of_mem_erase hk)
  · rw [hstep, hne]
    constructor
    · rintro ⟨hl, hdead⟩
      have hk : k = h := by
        by_contra hk
        exact hdead ⟨hk, hl⟩
      rw [hk]
    · intro hk
      obtain rfl := Op.drop.inj hk
      exact ⟨hm.live h hmem, fun hc => hc.1 rfl⟩

/-- **One step keeps the split exactly when** a constructor that has its handle
completes. -/
theorem owns_step_iff (hapi : rt.api.Lawful rt.width inv) (hm : m.Inv inv) (hnl : NoLeak foreign m)
    (hop : op.Owning m) : Owns rt foreign op m ↔ op.Completes rt m := by
  have he := run_effect hapi hm (hop.safe rt inv)
  have hinv := he.inv_step hm
  rcases hr : rt.run op m with ⟨o, m'⟩
  have hstep : rt.step op m = m' := congrArg Prod.snd hr
  rw [hr] at he hinv
  cases he with
  | same hc hdrop _ hs =>
      exact iff_of_true (owns_of_live_iff hnl hm hr hdrop (fun k => (hs k).live_iff) rfl) hc
  | confined hc hdrop _ hl hcon _ =>
      refine iff_of_true (owns_of_live_iff hnl hm hr hdrop (fun k => ?_) rfl) hc
      rw [hcon.others.live_iff hcon.live, or_iff_right_of_imp fun hk => hk ▸ hl]
  | filled _ hpass ht _ _ _ _ => exact absurd ht (hop.not_fills hpass)
  | @made h w ty hc ht hfresh hu ho _ =>
      exact iff_of_true (owns_of_made hnl hstep hinv ht hfresh hu ho) hc
  | @lost _ h w hc _ hfresh hu _ =>
      -- the new handle is in the table, but neither foreign nor owned
      refine iff_of_false (fun hown => ?_) hc
      have hlive : (rt.step op m).world.Live h := by
        rw [hstep]
        exact hu.live
      have hmem := (hown.noLeak.held h).mp hlive
      rw [hstep] at hmem
      exact (hnl.held h).mpr hmem hfresh
  | @dropped h w hdrop hmem _ hgone ho =>
      subst hdrop
      exact iff_of_true (owns_of_dropped hnl hm hstep hinv hmem hgone ho) (.inr trivial)

/-- **No leak and no double free, exactly in the runs** in which every
constructor that gets a handle completes. -/
theorem owns_iff_completes (hapi : rt.api.Lawful rt.width inv) (hm : m.Inv inv)
    (hnl : NoLeak foreign m) (ops : List Op) (hops : Along rt.step Op.Owning ops m) :
    Along rt.step (Owns rt foreign) ops m ↔ Along rt.step (Op.Completes rt) ops m := by
  refine Along.iff_of_invariant (I := fun m => m.Inv inv ∧ NoLeak foreign m) ?_ ?_ ops m ⟨hm, hnl⟩
    hops
  · rintro op m ⟨hm, hnl⟩ hop hc
    have he := run_effect hapi hm (hop.safe rt inv)
    exact ⟨he.inv_step hm, ((owns_step_iff hapi hm hnl hop).mpr hc).noLeak⟩
  · rintro op m ⟨hm, hnl⟩ hop
    exact owns_step_iff hapi hm hnl hop

/-- A string is made, cloned and dropped twice, after a first `DSNewHandle`
that fails. -/
theorem owns_iff_completes_bump :
    Along (Bump.runtime .w64).step (Owns (Bump.runtime .w64) fun _ => False)
      [.fromData [7], .fromData [7], .tryClone ⟨1⟩, .drop ⟨1⟩, .drop ⟨2⟩] (Bump.machine [2]) := by
  refine (owns_iff_completes (Bump.lawful .w64) (Bump.machine_inv [2]) ⟨?_, nofun⟩ _ ?_).mpr ?_
  · exact fun h => iff_of_false (fun hl => hl rfl) (fun hc => hc.elim id nofun)
  · exact ⟨trivial, trivial, trivial, .tail _ (.head _), .head _, trivial⟩
  · exact ⟨.inl rfl, .inr rfl, .inr ⟨rfl, rfl⟩, .inr trivial, .inr trivial, trivial⟩

/-- `try_to_owned` of a null handle returns its error after `DSNewHandle` and
before the new handle has an owner. -/
theorem not_owns : ¬ Along (Bump.runtime .w64).step (Owns (Bump.runtime .w64) fun _ => False)
    [.tryToOwned .null] (Bump.machine []) := by
  rintro ⟨hown, -⟩
  have hmem := (hown.noLeak.held ⟨1⟩).mp (Option.some_ne_none _)
  exact hmem.elim id nofun

end LvInterop
