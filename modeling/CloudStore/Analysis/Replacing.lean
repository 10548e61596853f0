import CloudStore.Interface.FailingWrites
import CloudStore.Interface.Playback

/-!
# Replacements that fail

`finishUpload` and `instantUpload` give the old content of the path up before they write the
new one. What fails until the row of the path is read leaves the store as it was. What fails
behind, tears it: a statement of `unindex` comes after the reference is gone, and the copy of
the object and the statements of `indexFile` come after the path has lost its row and its key.
-/

set_option autoImplicit false

namespace CloudStore.Analysis

open CloudStore.Library (Bytes Path)
open CloudStore.Library.Posix (render)
open CloudStore.Model
open CloudStore.Model.TransferService
open CloudStore.Model.World (backend)
open CloudStore.Interface

/-- One step that fails. -/
inductive Fault where
  /-- The preparation or the execution of a statement, the `k`-th of these calls. -/
  | statement (k : ℕ) (executed : Bool)
  /-- Reads and writes of the copy. -/
  | copy (readFails : ℕ → Bool) (room : ℕ → Option ℕ)

namespace Fault

/-- The calls for statements that fail. -/
def fails : Fault → ℕ → Option Bool
  | .statement k executed => fun i => if i = k then some executed else none
  | .copy _ _ => fun _ => none

/-- The disk. -/
def disk : Fault → Disk
  | .statement _ _ => {}
  | .copy readFails room => { readFails := fun _ => readFails, room := fun _ => room }

variable {fault : Fault}

/-- Only one call fails. -/
theorem single {k : ℕ} (h : fault.fails k ≠ none) : ∀ i, i ≠ k → fault.fails i = none := by
  cases fault with
  | statement k' executed =>
      intro i hi
      by_cases hk : k = k'
      · subst hk
        exact if_neg hi
      · exact absurd (if_neg hk) h
  | copy readFails room => exact absurd rfl h

end Fault

variable {env : Env} {w : World}

/-- `finishUpload` with a fault. -/
def finish (env : Env) (fault : Fault) (session : UserSession) (w : World) (st : UploadSession) :
    Except Exn Unit × (World × ℕ) × UploadSession :=
  finishUpload (failingStatements fault.fails (backend env)) session ((w, 0), st)

/-- `instantUpload` with a fault, over the file at its path. -/
def instant (env : Env) (fault : Fault) (session : UserSession) (w : World) (dest : Path)
    (p m : Bytes) (size offset : ℕ) (proof : Bytes) : Except Exn Unit × World × ℕ :=
  instantUpload (failingStatements fault.fails (backend env)) session (render dest) p m size offset
    proof true (w, 0)

end CloudStore.Analysis
