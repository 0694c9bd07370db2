import LvInterop.Errors

/-!
# LvInterop.Sync

User events and occurrences (`sync.rs`), and the two functions of the support
manager they call.
-/

namespace LvInterop

open Lib

variable {ρ : Type}

/-- A reference number. -/
structure MagicCookie where
  value : UInt32
deriving DecidableEq, Repr

/-- The synchronisation functions loaded from LabVIEW, over LabVIEW's own
state `ρ`. -/
structure SyncApi (ρ : Type) where
  /-- `PostLVUserEvent`, which gets a pointer to the data -/
  postLvUserEvent : MagicCookie → List UInt8 × ρ → LVStatusCode × (List UInt8 × ρ)
  /-- `Occur` -/
  occur : MagicCookie → ρ → LVStatusCode × ρ

/-- `LVUserEvent::post`; the data is part of the state, since the function may
modify it. -/
def LVUserEvent.post (syncApi : Result (SyncApi ρ)) (reference : MagicCookie) :
    Exec (List UInt8 × ρ) LVInteropError Unit := do
  let api ← Exec.ofExcept syncApi
  let mg_err ← Exec.call (api.postLvUserEvent reference)
  Exec.ofExcept (mg_err.toSpecificResult ())

/-- `Occurence::set`. -/
def Occurence.set (syncApi : Result (SyncApi ρ)) (self : MagicCookie) :
    Exec ρ LVInteropError Unit := do
  let api ← Exec.ofExcept syncApi
  let mg_err ← Exec.call (api.occur self)
  Exec.ofExcept (mg_err.toSpecificResult ())

end LvInterop
