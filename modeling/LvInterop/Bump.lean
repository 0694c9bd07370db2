import LvInterop.Labview
import Mathlib.Logic.Function.Basic
import Mathlib.Order.MinMax

/-!
# LvInterop.Bump

A small manager that keeps every promise of `MemoryApi.Lawful`, so that the
model can be run: blocks are laid out one behind the other and never reused,
and a script of status codes says which requests are refused.

A block of no bytes takes no room, so the next block starts at its address.
-/

namespace LvInterop

open Lib

/-- The private state: the next handle, the next free address, the word kept
behind every master pointer, and the answers to come (0, or a missing entry,
grants the request). -/
structure Bump where
  top : Nat
  brk : Nat
  word : Nat
  script : List Int32
deriving Repr

namespace Bump

/-- The next answer. -/
def answer (s : Bump) : LVStatusCode := ⟨s.script.headD 0⟩

/-- The state after an answer is used up. -/
def advance (w : World Bump) : World Bump :=
  { w with mgr := { w.mgr with script := w.mgr.script.tail } }

/-- Give `h` a block of `n` bytes that starts with `bs`. -/
def place (w : World Bump) (h : UHandle) (n : Nat) (bs : List UInt8) : World Bump where
  mem := writeBytes w.mem w.mgr.brk bs
  master := Function.update w.master h ⟨w.mgr.brk, w.mgr.word⟩
  live := Function.update w.live h (some n)
  mgr := { w.mgr with top := max w.mgr.top (h.raw + 1), brk := w.mgr.brk + n }

/-- The bytes of the block of `h` that still fit in `n` bytes. -/
def front (w : World Bump) (h : UHandle) (n : Nat) : List UInt8 :=
  ((w.block h).getD []).take n

/-- The handle a request with a handle variable works on. -/
def target (w : World Bump) (h : UHandle) : UHandle := if h = .null then ⟨w.mgr.top⟩ else h

/-- The status of an unknown handle. -/
def zoneErr : LVStatusCode := ⟨3⟩

def newHandle (n : Nat) (w : World Bump) : UHandle × World Bump :=
  if w.mgr.answer = .SUCCESS then
    (⟨w.mgr.top⟩, place (advance w) ⟨w.mgr.top⟩ n [])
  else (.null, advance w)

def setHandleSize (h : UHandle) (n : Nat) (w : World Bump) : LVStatusCode × World Bump :=
  if w.Live h then
    if w.mgr.answer = .SUCCESS then (.SUCCESS, place (advance w) h n (front w h n))
    else (w.mgr.answer, advance w)
  else (zoneErr, w)

def copyHandle (h src : UHandle) (w : World Bump) : (LVStatusCode × UHandle) × World Bump :=
  match w.live src with
  | none => ((zoneErr, h), w)
  | some n =>
      if h = .null ∨ w.Live h then
        if w.mgr.answer = .SUCCESS then
          ((.SUCCESS, target w h), place (advance w) (target w h) n (front w src n))
        else ((w.mgr.answer, h), advance w)
      else ((zoneErr, h), w)

def disposeHandle (h : UHandle) (w : World Bump) : LVStatusCode × World Bump :=
  if w.Live h then (.SUCCESS, { w with live := Function.update w.live h none })
  else (zoneErr, w)

def numericArrayResize (width : PtrWidth) (typeCode : Int32) (D : Nat) (h : UHandle) (n : Nat)
    (w : World Bump) : (LVStatusCode × UHandle) × World Bump :=
  match hl : typeLayout typeCode with
  | none => ((⟨1⟩, h), w)
  | some (size, align) =>
      if h = .null ∨ w.Live h then
        if w.mgr.answer = .SUCCESS then
          let bytes := dataOffset width D ⟨typeCode, size, align, hl⟩ + n * size
          ((.SUCCESS, target w h), place (advance w) (target w h) bytes (front w h bytes))
        else ((w.mgr.answer, h), advance w)
      else ((zoneErr, h), w)

/-- The manager. -/
def api (width : PtrWidth) : MemoryApi Bump where
  checkHandle h w := if w.Live h then .SUCCESS else zoneErr
  newHandle := newHandle
  copyHandle := copyHandle
  disposeHandle := disposeHandle
  setHandleSize := setHandleSize
  errorCodeDescription _ := none
  numericArrayResize := numericArrayResize width

/-! ## the manager keeps its promises -/

/-- Every handle is below `top`, every block ends before `brk`. -/
structure Inv (w : World Bump) : Prop where
  null : w.live .null = none
  top : ∀ h n, w.live h = some n → h.raw < w.mgr.top
  brk : ∀ h n, w.live h = some n → w.addr h + n ≤ w.mgr.brk
  apart : w.BlocksApart
  top_pos : 0 < w.mgr.top
  brk_pos : 0 < w.mgr.brk

theorem Inv.advance {w : World Bump} (h : Inv w) : Inv (advance w) :=
  ⟨h.null, h.top, h.brk, h.apart, h.top_pos, h.brk_pos⟩

theorem Inv.mem {w : World Bump} (m : Mem) (h : Inv w) : Inv { w with mem := m } :=
  ⟨h.null, h.top, h.brk, h.apart, h.top_pos, h.brk_pos⟩

theorem same_advance (w : World Bump) : w.Same (advance w) :=
  fun _ => ⟨rfl, fun _ _ => rfl, fun _ _ => rfl⟩

/-- The next handle is unknown. -/
theorem Inv.live_top {w : World Bump} (h : Inv w) : w.live ⟨w.mgr.top⟩ = none := by
  cases hl : w.live ⟨w.mgr.top⟩ with
  | none => rfl
  | some n => exact absurd (h.top _ n hl) (Nat.lt_irrefl _)

theorem addr_place_self (w : World Bump) (h : UHandle) (n : Nat) (bs : List UInt8) :
    (place w h n bs).addr h = w.mgr.brk := by
  simp [place, World.addr]

theorem addr_place_of_ne (w : World Bump) {h k : UHandle} (hk : k ≠ h) (n : Nat)
    (bs : List UInt8) : (place w h n bs).addr k = w.addr k := by
  simp [place, World.addr, hk]

/-- Laying out a block keeps the invariant. -/
theorem Inv.place {w : World Bump} (hw : Inv w) {h : UHandle} (hh : h ≠ .null) (n : Nat)
    (bs : List UInt8) : Inv (place w h n bs) where
  null := by simpa [Bump.place, Ne.symm hh] using hw.null
  top k l hl := by
    by_cases hk : k = h
    · subst hk
      simp [Bump.place]
    · have hl' : w.live k = some l := by simpa [Bump.place, hk] using hl
      have := hw.top k l hl'
      simp only [Bump.place]
      omega
  brk k l hl := by
    by_cases hk : k = h
    · subst hk
      have hl' : n = l := by simpa [Bump.place] using hl
      rw [addr_place_self, hl']
      exact Nat.le_refl _
    · have hl' : w.live k = some l := by simpa [Bump.place, hk] using hl
      have := hw.brk k l hl'
      rw [addr_place_of_ne w hk]
      simp only [Bump.place]
      omega
  apart := by
    intro j k l m hjk hj hk
    by_cases hjh : j = h
    · subst hjh
      have hk' : w.live k = some m := by simpa [Bump.place, hjk.symm] using hk
      rw [addr_place_self, addr_place_of_ne w hjk.symm]
      exact (apart_of_le (hw.brk k m hk')).symm
    · have hj' : w.live j = some l := by simpa [Bump.place, hjh] using hj
      by_cases hkh : k = h
      · subst hkh
        rw [addr_place_self, addr_place_of_ne w hjh]
        exact apart_of_le (hw.brk j l hj')
      · have hk' : w.live k = some m := by simpa [Bump.place, hkh] using hk
        rw [addr_place_of_ne w hjh, addr_place_of_ne w hkh]
        exact hw.apart j k l m hjk hj' hk'
  top_pos := by
    have := hw.top_pos
    simp only [Bump.place]
    omega
  brk_pos := by
    have := hw.brk_pos
    simp only [Bump.place]
    omega

/-- A block is laid out behind all others. -/
theorem Inv.granted {w : World Bump} (hw : Inv w) {h : UHandle} {n : Nat} {bs : List UInt8} :
    w.Granted (Bump.place (Bump.advance w) h n bs) h n where
  live := by simp [Bump.place]
  addr := by
    rw [addr_place_self]
    exact Nat.ne_of_gt hw.brk_pos
  others := by
    intro k hk
    refine ⟨by simp [Bump.place, Bump.advance, hk], fun _ _ => addr_place_of_ne _ hk n bs,
      fun l hl => ?_⟩
    exact readBytes_writeBytes_of_apart (apart_of_le (hw.brk k l hl)).symm

/-- The front of the old block is the front of the new one. -/
theorem survives_place {w : World Bump} (src h : UHandle) (n : Nat) :
    w.Survives (Bump.place (Bump.advance w) h n (front w src n)) src h n := by
  intro old hold
  have hfront : front w src n = readBytes w.mem (w.addr src) (min old n) := by
    by_cases hle : old ≤ n
    · rw [front, World.block, hold, Nat.min_eq_left hle]
      simp [List.take_of_length_le, hle]
    · rw [front, World.block, hold, Nat.min_eq_right (by omega)]
      simp [take_readBytes w.mem (show n ≤ old by omega)]
  have hlen : (front w src n).length = min old n := by rw [hfront, length_readBytes]
  rw [addr_place_self, ← hlen]
  simp only [Bump.place, Bump.advance, readBytes_writeBytes]
  rw [hfront, length_readBytes]

/-- A request with a handle variable works on its target. -/
theorem Inv.target {w : World Bump} (hw : Inv w) {h : UHandle} (hh : h = .null ∨ w.Live h) :
    w.Target h (Bump.target w h) ∧ Bump.target w h ≠ .null := by
  by_cases hn : h = .null
  · have ht : Bump.target w h = ⟨w.mgr.top⟩ := by simp [Bump.target, hn]
    refine ⟨.inl ⟨hn, ht ▸ hw.live_top⟩, fun hc => ?_⟩
    have hz : w.mgr.top = 0 := congrArg UHandle.raw (ht.symm.trans hc)
    exact Nat.ne_of_gt hw.top_pos hz
  · have ht : Bump.target w h = h := by simp [Bump.target, hn]
    rw [ht]
    exact ⟨.inr ⟨hn, rfl, hh.resolve_left hn⟩, hn⟩

/-- The manager is lawful. -/
theorem lawful (width : PtrWidth) : (api width).Lawful width Inv where
  inv_mem m h := h.mem m
  apart h := h.apart
  null h := h.null
  check {w h} _ := by
    by_cases hl : w.Live h
    · simp [api, hl]
    · simp [api, hl, zoneErr, LVStatusCode.SUCCESS]
  new {w w' n h} hw hr := by
    simp only [api, newHandle] at hr
    split_ifs at hr with ha
    · obtain ⟨rfl, rfl⟩ := Prod.mk.inj hr
      have hne : (⟨w.mgr.top⟩ : UHandle) ≠ .null := fun hc =>
        Nat.ne_of_gt hw.top_pos (congrArg UHandle.raw hc)
      exact ⟨hw.advance.place hne n [], .inr ⟨hw.live_top, hw.granted⟩⟩
    · obtain ⟨rfl, rfl⟩ := Prod.mk.inj hr
      exact ⟨hw.advance, .inl ⟨rfl, same_advance w⟩⟩
  setSize {w w' h n s} hw hr := by
    simp only [api, setHandleSize] at hr
    split_ifs at hr with hl ha
    · obtain ⟨rfl, rfl⟩ := Prod.mk.inj hr
      have hne : h ≠ .null := fun hc => hl (hc ▸ hw.null)
      exact ⟨hw.advance.place hne n _,
        .inr ⟨rfl, hl, hw.granted, survives_place h h n⟩⟩
    · obtain ⟨rfl, rfl⟩ := Prod.mk.inj hr
      exact ⟨hw.advance, .inl ⟨ha, same_advance w⟩⟩
    · obtain ⟨rfl, rfl⟩ := Prod.mk.inj hr
      exact ⟨hw, .inl ⟨by decide, .refl w⟩⟩
  copy {w w' h src s h'} hw hr := by
    simp only [api, copyHandle] at hr
    split at hr
    · obtain ⟨hsh, rfl⟩ := Prod.mk.inj hr
      obtain ⟨rfl, rfl⟩ := Prod.mk.inj hsh
      exact ⟨hw, .inl ⟨by decide, rfl, .refl w⟩⟩
    · next n hn =>
      split_ifs at hr with hh ha
      · obtain ⟨hsh, rfl⟩ := Prod.mk.inj hr
        obtain ⟨rfl, rfl⟩ := Prod.mk.inj hsh
        obtain ⟨ht, hne⟩ := hw.target hh
        exact ⟨hw.advance.place hne n _,
          .inr ⟨rfl, ht, n, hn, hw.granted, survives_place src _ n⟩⟩
      · obtain ⟨hsh, rfl⟩ := Prod.mk.inj hr
        obtain ⟨rfl, rfl⟩ := Prod.mk.inj hsh
        exact ⟨hw.advance, .inl ⟨ha, rfl, same_advance w⟩⟩
      · obtain ⟨hsh, rfl⟩ := Prod.mk.inj hr
        obtain ⟨rfl, rfl⟩ := Prod.mk.inj hsh
        exact ⟨hw, .inl ⟨by decide, rfl, .refl w⟩⟩
  dispose {w w' h s} hw hr := by
    simp only [api, disposeHandle] at hr
    split_ifs at hr with hl
    · obtain ⟨rfl, rfl⟩ := Prod.mk.inj hr
      have hdead : ∀ k n, Function.update w.live h none k = some n → w.live k = some n := by
        intro k n hk
        by_cases hkh : k = h
        · simp [hkh] at hk
        · simpa [hkh] using hk
      refine ⟨⟨?_, fun k n hk => hw.top k n (hdead k n hk), fun k n hk => hw.brk k n (hdead k n hk),
        fun j k l m hjk hj hk => hw.apart j k l m hjk (hdead j l hj) (hdead k m hk), hw.top_pos,
        hw.brk_pos⟩, .inr ⟨rfl, hl, by simp, ?_⟩⟩
      · by_cases hkh : UHandle.null = h
        · simp [hkh]
        · simpa [hkh] using hw.null
      · exact fun k hk => ⟨by simp [hk], fun _ _ => rfl, fun _ _ => rfl⟩
    · obtain ⟨rfl, rfl⟩ := Prod.mk.inj hr
      exact ⟨hw, .inl ⟨by decide, hl, .refl w⟩⟩
  resize {w w' T D h n s h'} hw hr := by
    simp only [api, numericArrayResize] at hr
    split at hr
    · next hnone => exact absurd (hnone.symm.trans T.layout) (by simp)
    · next size align hsome =>
      obtain ⟨rfl, rfl⟩ : size = T.size ∧ align = T.align := by
        have := hsome.symm.trans T.layout
        simpa using this
      split_ifs at hr with hh ha
      · obtain ⟨hsh, rfl⟩ := Prod.mk.inj hr
        obtain ⟨rfl, rfl⟩ := Prod.mk.inj hsh
        obtain ⟨ht, hne⟩ := hw.target hh
        refine ⟨hw.advance.place hne _ _,
          .inr ⟨rfl, ht, _, hw.granted, ?_, ?_, survives_place h _ _⟩⟩
        · exact Nat.le_trans (header_le_dataOffset width D T) (Nat.le_add_right _ _)
        · rw [allocatedElements, Nat.add_sub_cancel_left]
          exact Nat.mul_div_cancel n T.size_pos
      · obtain ⟨hsh, rfl⟩ := Prod.mk.inj hr
        obtain ⟨rfl, rfl⟩ := Prod.mk.inj hsh
        exact ⟨hw.advance, .inl ⟨ha, rfl, same_advance w⟩⟩
      · obtain ⟨hsh, rfl⟩ := Prod.mk.inj hr
        obtain ⟨rfl, rfl⟩ := Prod.mk.inj hsh
        exact ⟨hw, .inl ⟨by decide, rfl, .refl w⟩⟩

/-- A fresh process: no handles yet, memory all zero. -/
def start (word : Nat) (script : List Int32) : World Bump where
  mem _ := 0
  master _ := ⟨0, 0⟩
  live _ := none
  mgr := ⟨1, 4096, word, script⟩

theorem inv_start (word : Nat) (script : List Int32) : Inv (start word script) where
  null := rfl
  top _ _ h := by simp [start] at h
  brk _ _ h := by simp [start] at h
  apart _ _ _ _ _ h := by simp [start] at h
  top_pos := Nat.one_pos
  brk_pos := Nat.succ_pos 4095

end Bump

end LvInterop
