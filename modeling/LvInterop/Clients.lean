import LvInterop.Refine

/-!
# LvInterop.Clients

Handles are `Send` and `Sync` because the manager is thread safe, so several
threads may use handles at the same time.  Here each operation is one step, the
steps of the threads come in any order, and a thread mentions only handles it
holds: those it started with and those its operations returned.  A handle that
was dropped may come back to another thread.

Whatever the order, each thread finds behind its handles what its own
operations make of them (`clients_apart`).
-/

namespace LvInterop

open Lib

variable {τ χ : Type} {inv : World τ → Prop} {rt : Runtime τ} {m : Machine τ}

/-- The handles an operation mentions: its source and its target. -/
def Op.Mentions (op : Op) (k : UHandle) : Prop :=
  op.source = some k ∨ (op.target = some k ∧ k ≠ .null)

/-- The handles of an event.  A constructor is granted the handle it returns,
and so is an operation on a null variable. -/
def Op.names : Names (Op × Outcome LVInteropError UHandle) UHandle where
  mentioned event k := event.1.Mentions k
  granted event k := event.2 = .ok k ∧ (event.1.target = none ∨ event.1.target = some .null)
  released event k := event.1 = .drop k ∧ event.2 = .ok k ∧ k ≠ .null

/-- A handle that is not returned is neither granted nor given up. -/
theorem Op.names_of_ne {op : Op} {o : Outcome LVInteropError UHandle} {k : UHandle}
    (hk : o ≠ .ok k) : ¬ Op.names.granted (op, o) k ∧ ¬ Op.names.released (op, o) k :=
  ⟨fun hg => hk hg.1, fun hr => hk hr.2.1⟩

/-- Who holds a handle that is not returned. -/
theorem Op.holders_of_ne {op : Op} {o : Outcome LVInteropError UHandle} {k : UHandle}
    (hk : o ≠ .ok k) (c : χ) (own : UHandle → Option χ) :
    Op.names.holders c (op, o) own k = own k := by
  obtain ⟨hg, hr⟩ := @Op.names_of_ne op o k hk
  rw [Names.holders, if_neg hg, if_neg hr]

/-! ## operations are local -/

section Local

variable {op : Op} {σ : Store UHandle (Value rt.width)} {h : UHandle} {v : Option (Value rt.width)}

/-- The handle an operation returns is its target or is granted to it. -/
theorem Op.Yields.target_or (hy : op.Yields rt σ h v) :
    op.target = some h ∨ ((op.target = none ∨ op.target = some .null) ∧ σ h = none) := by
  cases op with
  | new | emptyString | fromData | newEmpty | tryClone | tryToOwned => exact .inr ⟨.inl rfl, hy.1⟩
  | cloneIntoPointer self other =>
      obtain ⟨rfl, -⟩ | ⟨rfl, hnone, -⟩ := hy
      · exact .inl rfl
      · exact .inr ⟨.inr rfl, hnone⟩
  | resizeArray self D T dims =>
      obtain ⟨rfl, -⟩ | ⟨rfl, -⟩ | ⟨rfl, hnone, -⟩ := hy
      · exact .inl rfl
      · exact .inl rfl
      · exact .inr ⟨.inr rfl, hnone⟩
  | set | setStr | copyFromNdarray | setValueUnchecked | drop => exact .inl (congrArg some hy.1.symm)

/-- An operation looks at the store only under the names it mentions. -/
theorem Op.Yields.only (hy : op.Yields rt σ h v) (hh : h ≠ .null) {P : UHandle → Prop}
    (hP : ∀ k, op.Mentions k → P k) : op.Yields rt (σ.only P) h v := by
  have hsource : ∀ self, op.source = some self → σ.only P self = σ self :=
    fun self hs => Store.only_of_mem (hP self (.inl hs))
  have htarget : op.target = some h → σ.only P h = σ h :=
    fun ht => Store.only_of_mem (hP h (.inr ⟨ht, hh⟩))
  cases op with
  | new | emptyString | fromData | newEmpty => exact ⟨Store.only_eq_none hy.1, hy.2⟩
  | tryClone self | tryToOwned self =>
      exact ⟨Store.only_eq_none hy.1, hy.2.trans (hsource self rfl).symm⟩
  | cloneIntoPointer self other =>
      obtain ⟨rfl, hv⟩ | ⟨rfl, hnone, hv⟩ := hy
      · exact .inl ⟨rfl, by rw [htarget rfl, hsource self rfl, hv]⟩
      · exact .inr ⟨rfl, Store.only_eq_none hnone, hv.trans (hsource self rfl).symm⟩
  | set self value | setStr self value =>
      obtain ⟨rfl, hv⟩ := hy
      exact ⟨rfl, by rw [htarget rfl, hv]⟩
  | resizeArray self D T dims =>
      obtain ⟨rfl, hnone, hv⟩ | ⟨rfl, a, a', ha, hrest⟩ | ⟨rfl, hnone, hrest⟩ := hy
      · exact .inl ⟨rfl, Store.only_eq_none hnone, hv⟩
      · exact .inr (.inl ⟨rfl, a, a', (htarget rfl).trans ha, hrest⟩)
      · exact .inr (.inr ⟨rfl, Store.only_eq_none hnone, hrest⟩)
  | copyFromNdarray self D T view =>
      obtain ⟨rfl, a, a', ha, hrest⟩ := hy
      exact ⟨rfl, a, a', (htarget rfl).trans ha, hrest⟩
  | setValueUnchecked self D T index value =>
      obtain ⟨rfl, a, a', ha, hrest⟩ := hy
      exact ⟨rfl, a, a', (htarget rfl).trans ha, hrest⟩
  | drop self => exact hy

/-- What is returned holds a value, if what is mentioned does and unless it is
dropped. -/
theorem Op.Yields.ne_none (hy : op.Yields rt σ h v) (hh : h ≠ .null)
    (hσ : ∀ k, op.Mentions k → σ k ≠ none) (hdrop : op ≠ .drop h) : v ≠ none := by
  have hsource : ∀ self, op.source = some self → σ self ≠ none := fun self hs => hσ self (.inl hs)
  have htarget : op.target = some h → σ h ≠ none := fun ht => hσ h (.inr ⟨ht, hh⟩)
  cases op with
  | new | emptyString | fromData => simp [hy.2]
  | newEmpty D T =>
      obtain ⟨-, a, -, rfl⟩ := hy
      exact Option.some_ne_none _
  | tryClone self | tryToOwned self =>
      rw [hy.2]
      exact hsource self rfl
  | cloneIntoPointer self other =>
      obtain ⟨rfl, hv⟩ | ⟨rfl, -, hv⟩ := hy
      · obtain ⟨x, hx⟩ := Option.ne_none_iff_exists'.mp (htarget rfl)
        rw [hv, hx, Option.bind_some]
        exact hsource self rfl
      · rw [hv]
        exact hsource self rfl
  | set self value | setStr self value =>
      obtain ⟨rfl, hv⟩ := hy
      simpa [hv] using htarget rfl
  | resizeArray self D T dims =>
      obtain ⟨rfl, hnone, -⟩ | ⟨-, a, a', -, -, -, rfl⟩ | ⟨-, -, a', -, rfl⟩ := hy
      · exact absurd hnone (htarget rfl)
      · exact Option.some_ne_none _
      · exact Option.some_ne_none _
  | copyFromNdarray self D T view =>
      obtain ⟨-, a, a', -, -, -, rfl⟩ := hy
      exact Option.some_ne_none _
  | setValueUnchecked self D T index value =>
      obtain ⟨-, a, a', -, -, -, rfl⟩ := hy
      exact Option.some_ne_none _
  | drop self =>
      obtain ⟨rfl, -⟩ := hy
      exact absurd rfl hdrop

/-- Operations are local to their handles. -/
theorem Op.local_step (rt : Runtime τ) : Local Op.names (Op.Step rt) where
  released := by
    rintro ⟨op, o⟩ k ⟨hop, -, hk⟩
    obtain rfl : op = .drop k := hop
    exact .inr ⟨rfl, hk⟩
  frame := by
    rintro ⟨op, o⟩ σ σ' hstep k hm hg
    cases o with
    | err e => exact congrFun hstep k
    | panic => exact congrFun hstep k
    | ok h =>
        obtain ⟨hh, v, hy, rfl⟩ := hstep
        refine Function.update_of_ne ?_ _ _
        rintro rfl
        obtain ht | ⟨ht, -⟩ := hy.target_or
        · exact hm (.inr ⟨ht, hh⟩)
        · exact hg ⟨rfl, ht⟩
  only := by
    rintro ⟨op, o⟩ σ σ' P hstep hP
    have hfail : σ' = σ → (∀ h, o ≠ .ok h) →
        (σ'.only fun k => Op.names.granted (op, o) k ∨ P k ∧ ¬ Op.names.released (op, o) k) =
          σ.only P := by
      rintro rfl ho
      refine Store.only_congr (fun k => ?_) fun _ _ => rfl
      obtain ⟨hg, hr⟩ := @Op.names_of_ne op o k (ho k)
      simp [hg, hr]
    cases o with
    | err e => exact hfail hstep nofun
    | panic => exact hfail hstep nofun
    | ok h =>
        obtain ⟨hh, v, hy, rfl⟩ := hstep
        refine ⟨hh, v, hy.only hh hP, ?_⟩
        funext k
        by_cases hk : k = h
        · subst hk
          rw [Function.update_self]
          by_cases hdrop : op = .drop k
          · subst hdrop
            obtain ⟨-, rfl⟩ := hy
            exact Store.only_eq_none (Function.update_self _ _ _)
          · rw [Store.only_of_mem, Function.update_self]
            obtain ht | ⟨ht, -⟩ := hy.target_or
            · exact .inr ⟨hP k (.inr ⟨ht, hh⟩), fun hr => hdrop hr.1⟩
            · exact .inl ⟨rfl, ht⟩
        · obtain ⟨hg, hr⟩ := @Op.names_of_ne op (.ok h) k fun ho => hk (Outcome.ok.inj ho).symm
          rw [Function.update_of_ne hk]
          exact Store.only_congr_at (by simp [hg, hr]) fun _ => Function.update_of_ne hk _ _

end Local

/-! ## threads -/

/-- A step of the thread `p.1`, with the handles each thread holds. -/
noncomputable def Runtime.threadStep (rt : Runtime τ) (p : χ × Op)
    (s : Machine τ × (UHandle → Option χ)) : Machine τ × (UHandle → Option χ) :=
  (rt.step p.2 s.1, Op.names.holders p.1 (p.2, (rt.run p.2 s.1).1) s.2)

/-- The events of a run, each with its thread. -/
def Runtime.threadTrace (rt : Runtime τ) :
    List (χ × Op) → Machine τ → List (χ × (Op × Outcome LVInteropError UHandle))
  | [], _ => []
  | (c, op) :: ops, m => (c, op, (rt.run op m).1) :: rt.threadTrace ops (rt.step op m)

theorem Runtime.map_threadTrace (rt : Runtime τ) (ops : List (χ × Op)) (m : Machine τ) :
    (rt.threadTrace ops m).map Prod.snd = rt.trace (ops.map Prod.snd) m := by
  induction ops generalizing m with
  | nil => rfl
  | cons p ops ih => exact congrArg _ (ih _)

/-- The handles each thread holds are held at a type. -/
def Holds (m : Machine τ) (own : UHandle → Option χ) : Prop := ∀ k, own k ≠ none → m.types k ≠ none

theorem Machine.store_ne_none (width : PtrWidth) {k : UHandle} :
    m.store width k ≠ none ↔ m.types k ≠ none := by
  simp [Machine.store]

/-- A step of a thread that keeps to its handles. -/
theorem threadStep_keeps (hapi : rt.api.Lawful rt.width inv) (hnd : ∀ D T, (rt.nd D T).Lawful)
    {c : χ} {op : Op} {own : UHandle → Option χ} (hm : m.Sound rt.width inv)
    (hop : op.Regular rt m) (hown : Holds m own) (hmine : ∀ k, op.Mentions k → own k = some c) :
    Op.names.Keeps c (op, (rt.run op m).1) own ∧
      Holds (rt.step op m) (Op.names.holders c (op, (rt.run op m).1) own) := by
  obtain ⟨-, hstep⟩ := step_refines hapi hnd hm hop
  have hsome : ∀ k, op.Mentions k → m.store rt.width k ≠ none := fun k hk =>
    (Machine.store_ne_none _).mpr (hown k (by simp [hmine k hk]))
  have hfail : (rt.step op m).store rt.width = m.store rt.width → (∀ h, (rt.run op m).1 ≠ .ok h) →
      Op.names.Keeps c (op, (rt.run op m).1) own ∧
        Holds (rt.step op m) (Op.names.holders c (op, (rt.run op m).1) own) := by
    intro hstore ho
    refine ⟨⟨hmine, fun k hg => absurd hg.1 (ho k)⟩, fun k hk => ?_⟩
    rw [← Machine.store_ne_none rt.width, hstore, Machine.store_ne_none]
    rw [Op.holders_of_ne (ho k)] at hk
    exact hown k hk
  cases hr : (rt.run op m).1 with
  | err e =>
      rw [hr] at hstep hfail
      exact hfail hstep nofun
  | panic =>
      rw [hr] at hstep hfail
      exact hfail hstep nofun
  | ok h =>
      rw [hr] at hstep
      obtain ⟨hh, v, hy, hstore⟩ := hstep
      constructor
      · refine ⟨hmine, fun k hg => ?_⟩
        obtain rfl := Outcome.ok.inj hg.1
        by_contra hk
        have hsome := (Machine.store_ne_none rt.width).mpr (hown h hk)
        obtain ht | ⟨-, hnone⟩ := hy.target_or
        · obtain hc | hc := hg.2
          · cases ht.symm.trans hc
          · exact hh (Option.some.inj (ht.symm.trans hc))
        · exact hsome hnone
      · intro k hk
        rw [← Machine.store_ne_none rt.width, hstore]
        by_cases hkh : k = h
        · subst hkh
          rw [Function.update_self]
          refine hy.ne_none hh hsome fun hdrop => hk ?_
          subst hdrop
          simp [Names.holders, Op.names, Op.target, hh]
        · rw [Function.update_of_ne hkh, Machine.store_ne_none]
          refine hown k ?_
          rwa [Op.holders_of_ne fun ho => hkh (Outcome.ok.inj ho).symm] at hk

/-- **Threads do not see each other**: in every order of the steps of threads
that keep to their handles, the values behind the handles of one thread are
those of a run of the store by the events of that thread alone.  The steps are
regular, as for one thread: a `new_empty` that finds a header at its new block,
or a string that does not get its bytes, can change the block of another. -/
theorem clients_apart [DecidableEq χ] (hapi : rt.api.Lawful rt.width inv)
    (hnd : ∀ D T, (rt.nd D T).Lawful) (ops : List (χ × Op)) (own : UHandle → Option χ)
    (hm : m.Sound rt.width inv) (hown : Holds m own)
    (hops : Along rt.threadStep
      (fun p s => p.2.Regular rt s.1 ∧ ∀ k, p.2.Mentions k → s.2 k = some p.1) ops (m, own)) (c : χ) :
    Runs (Op.Step rt) ((m.store rt.width).only fun k => own k = some c)
      (((rt.threadTrace ops m).filter fun p => p.1 = c).map Prod.snd)
      (((rt.final (ops.map Prod.snd) m).store rt.width).only fun k =>
        Op.names.holdersAfter (rt.threadTrace ops m) own k = some c) := by
  have hkeeps : Op.names.KeepsAll (rt.threadTrace ops m) own ∧
      Along rt.step (Op.Regular rt) (ops.map Prod.snd) m := by
    induction ops generalizing m own with
    | nil => exact ⟨trivial, trivial⟩
    | cons p ops ih =>
        obtain ⟨c, op⟩ := p
        obtain ⟨⟨hop, hmine⟩, hrest⟩ := hops
        obtain ⟨hkeep, hown'⟩ := threadStep_keeps hapi hnd hm hop hown hmine
        obtain ⟨hkeeps, hregular⟩ := ih _ (step_refines hapi hnd hm hop).1 hown' hrest
        exact ⟨⟨hkeep, hkeeps⟩, hop, hregular⟩
  refine (Op.local_step rt).project c ?_ hkeeps.1
  rw [Runtime.map_threadTrace]
  exact (runs_of_regular hapi hnd _ hm hkeeps.2).2

/-- Two threads make a string each, and the first one changes its own. -/
theorem clients_apart_bump : Runs (Op.Step (Bump.runtime .w64))
    (((Bump.machineWith 2).store .w64).only fun _ => (none : Option Bool) = some true)
    ((((Bump.runtime .w64).threadTrace [(true, .fromData [7]), (false, .fromData [1]),
      (true, .set ⟨1⟩ [8, 9])] (Bump.machineWith 2)).filter fun p => p.1 = true).map Prod.snd)
    (((((Bump.runtime .w64).final [.fromData [7], .fromData [1], .set ⟨1⟩ [8, 9]]
      (Bump.machineWith 2)).store .w64).only fun k =>
        Op.names.holdersAfter ((Bump.runtime .w64).threadTrace [(true, .fromData [7]),
          (false, .fromData [1]), (true, .set ⟨1⟩ [8, 9])] (Bump.machineWith 2)) (fun _ => none) k =
        some true)) := by
  refine clients_apart (Bump.lawful .w64) (Bump.nd_lawful .w64)
    [(true, .fromData [7]), (false, .fromData [1]), (true, .set ⟨1⟩ [8, 9])] (fun _ => none)
    (Bump.machineWith_sound 2 .w64) (fun _ hk => absurd rfl hk)
    ⟨⟨⟨⟨trivial, trivial⟩, trivial, by decide, by decide⟩, ?_⟩,
      ⟨⟨⟨trivial, trivial⟩, trivial, by decide, by decide⟩, ?_⟩,
      ⟨⟨⟨?_, trivial⟩, trivial, by decide, by decide⟩, ?_⟩, trivial⟩ true
  · rintro k (hk | ⟨hk, -⟩) <;> cases hk
  · rintro k (hk | ⟨hk, -⟩) <;> cases hk
  · exact fun t ht => (Option.some.inj ht).symm
  · rintro k (hk | ⟨hk, -⟩)
    · cases hk
    · obtain rfl := Option.some.inj hk
      -- the handle went to the first thread, and the second got another one
      exact (Op.holders_of_ne (by decide) false _).trans (if_pos ⟨rfl, .inl rfl⟩)

end LvInterop
